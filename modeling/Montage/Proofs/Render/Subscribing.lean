import Mathlib.Data.List.Nodup
import Montage.Proofs.Render.Reports

/-!
# Subscriptions

Whoever subscribes to a tracker gets something to call when the subscription shall end. The tracker
looks for the listener then, and not for the subscription: of several subscriptions of one listener
the first one ends, and calling again what a subscription gave ends another one. A ledger beside the
tracker says which subscriptions are active, and what has to be delivered because of them. The
tracker delivers just that, if each release finds the listener where the ledger has its
subscription.

## Main definitions

* `TrackerCall`: what is done with a tracker.
* `Ledger`: a tracker with its subscriptions, and `Ledger.step`, `Ledger.run`: what becomes of it.
* `Ledger.IsFulfilled`: everything that is due was delivered, in order, and nothing else.
* `Ledger.MayRelease`: the releases that end a subscription and no other one, and `Ledger.Allows`:
  calls with no other releases.

## Main statements

* `Ledger.Kept.step`: one call keeps the tracker in step with the ledger.
* `Ledger.isFulfilled_run_iff`: which calls leave every delivery in order.
* `Ledger.isFulfilled_run_of_nodup`: they do if no listener subscribes twice.
-/
namespace Montage

/-- What is done with a tracker. What subscription number `n` gave is called by `release n`. -/
inductive TrackerCall
  | subscribe (l : Listener)
  | release (n : Nat)
  | report (r : Report)

/-- The listener that a call subscribes. -/
def TrackerCall.subscribed? : TrackerCall → Option Listener
  | subscribe l => some l
  | _ => none

/-- A tracker with its subscriptions. -/
structure Ledger where
  tracker : Tracker
  /-- The listeners of all subscriptions that were made. -/
  made : List Listener
  /-- The subscriptions that are active, by their numbers. -/
  active : List (Nat × Listener)
  /-- What has to be delivered, each event once for each subscription that is active then. -/
  due : List (Listener × RenderEvent)

/-- The events that one report lets a tracker tell. -/
def Tracker.told (t : Tracker) (r : Report) : List RenderEvent :=
  (t.receive r).events.drop t.events.length

namespace Ledger

/-- The ledger of a rendering to which nobody has subscribed. -/
def of (operation : String) : Ledger := ⟨.of operation [], [], [], []⟩

/-- The ledger after one call. A subscription that was never made gave nothing to call. -/
def step (b : Ledger) : TrackerCall → Ledger
  | .subscribe l => { b with
      tracker := b.tracker.subscribe l
      made := b.made ++ [l]
      active := b.active ++ [(b.made.length, l)] }
  | .release n => match b.made[n]? with
    | some l => { b with
        tracker := b.tracker.unsubscribe l
        active := b.active.filter fun s => s.1 ≠ n }
    | none => b
  | .report r => { b with
      tracker := b.tracker.receive r
      due := b.due ++ (b.tracker.told r).flatMap fun e => b.active.map fun s => (s.2, e) }

/-- The ledger after some calls. -/
def run (b : Ledger) (calls : List TrackerCall) : Ledger := calls.foldl step b

/-- Everything that is due was delivered, in order, and nothing else. -/
def IsFulfilled (b : Ledger) : Prop := b.tracker.deliveries = b.due

/-- What subscription number `n` of `l` gave may be called: the subscription is active, and no
other listener has one between it and the first one of `l`; or neither it nor any other
subscription of `l` is active. -/
inductive MayRelease (active : List (Nat × Listener)) (n : Nat) (l : Listener) : Prop
  | ends (others same after : List (Nat × Listener))
      (split : active = others ++ same ++ (n, l) :: after)
      (others_ne : ∀ s ∈ others, s.2 ≠ l) (same_eq : ∀ s ∈ same, s.2 = l)
  | again (absent : ∀ s ∈ active, s.1 ≠ n ∧ s.2 ≠ l)

/-- The tracker has the listeners of the active subscriptions, and has delivered what is due. -/
structure Kept (b : Ledger) : Prop where
  listeners : b.tracker.listeners = b.active.map Prod.snd
  fulfilled : b.IsFulfilled

/-- The active subscriptions are some of those that were made, under numbers of their own. -/
structure Numbered (b : Ledger) : Prop where
  made : ∀ s ∈ b.active, b.made[s.1]? = some s.2
  nodup : (b.active.map Prod.fst).Nodup

end Ledger

/-! ## Ending the first subscription -/

section Erase

variable {α : Type} {xs ys : List α} {a : α}

theorem append_singleton_eq_cons_iff : xs ++ [a] = a :: xs ↔ ∀ x ∈ xs, x = a := by
  induction xs with
  | nil => simp
  | cons x xs ih =>
      rw [List.cons_append, List.cons.injEq, List.forall_mem_cons, ← ih]
      constructor
      · rintro ⟨rfl, h⟩
        exact ⟨rfl, h⟩
      · rintro ⟨rfl, h⟩
        exact ⟨rfl, h⟩

/-- The first of equal elements is taken in place of a later one just if there is nothing else
between the two. -/
theorem erase_append_cons_eq_iff [DecidableEq α] : (xs ++ a :: ys).erase a = xs ++ ys ↔
    ∃ others same, xs = others ++ same ∧ a ∉ others ∧ ∀ x ∈ same, x = a := by
  induction xs with
  | nil => simp
  | cons x xs ih =>
      by_cases hx : x = a
      · subst hx
        have happend : xs ++ x :: ys = x :: xs ++ ys ↔ ∀ y ∈ xs, y = x := by
          rw [← append_singleton_eq_cons_iff, List.append_cons, List.append_left_inj]
        rw [List.cons_append, List.erase_cons_head, happend]
        constructor
        · exact fun h => ⟨[], x :: xs, rfl, List.not_mem_nil, List.forall_mem_cons.mpr ⟨rfl, h⟩⟩
        · rintro ⟨others, same, heq, hothers, hsame⟩
          -- the first element is none of the others, so there are none
          cases others with
          | nil =>
              rw [List.nil_append] at heq
              rw [← heq] at hsame
              exact (List.forall_mem_cons.mp hsame).2
          | cons y others =>
              obtain rfl := (List.cons.inj heq).1
              exact absurd List.mem_cons_self hothers
      · rw [List.cons_append, List.erase_cons_tail (by simpa using hx), List.cons_append,
          List.cons.injEq, and_iff_right rfl, ih]
        constructor
        · rintro ⟨others, same, rfl, hothers, hsame⟩
          exact ⟨x :: others, same, rfl, by simp [Ne.symm hx, hothers], hsame⟩
        · rintro ⟨others, same, heq, hothers, hsame⟩
          cases others with
          | nil =>
              have hmem : x ∈ same := by
                rw [List.nil_append] at heq
                rw [← heq]
                exact List.mem_cons_self
              exact absurd (hsame x hmem) hx
          | cons y others =>
              exact ⟨others, same, (List.cons.inj heq).2, fun h => hothers (.tail _ h), hsame⟩

end Erase

namespace Ledger

variable {b : Ledger} {n : Nat} {l : Listener} {active : List (Nat × Listener)}

/-- The active subscriptions but one of them. -/
theorem filter_append_cons {before after : List (Nat × Listener)}
    (hnodup : ((before ++ (n, l) :: after).map Prod.fst).Nodup) :
    (before ++ (n, l) :: after).filter (fun s => s.1 ≠ n) = before ++ after := by
  have hrest : ∀ s ∈ before ++ after, s.1 ≠ n := by
    rw [List.map_append, List.map_cons, List.nodup_middle, List.nodup_cons,
      ← List.map_append] at hnodup
    exact fun s hs hsn => hnodup.1 (List.mem_map.mpr ⟨s, hs, hsn⟩)
  rw [List.filter_append, List.filter_cons_of_neg (by simp), ← List.filter_append,
    List.filter_eq_self]
  simpa using hrest

theorem filter_eq_self_of_absent (h : ∀ s ∈ active, s.1 ≠ n) :
    active.filter (fun s => s.1 ≠ n) = active := by
  rw [List.filter_eq_self]
  simpa using h

/-- Ending the first subscription of the listener ends subscription number `n` and no other one
just if that may be released. -/
theorem erase_eq_iff (hnodup : (active.map Prod.fst).Nodup)
    (hlistener : ∀ s ∈ active, s.1 = n → s.2 = l) :
    (active.map Prod.snd).erase l = (active.filter fun s => s.1 ≠ n).map Prod.snd ↔
      MayRelease active n l := by
  constructor
  · intro h
    by_cases hn : ∃ s ∈ active, s.1 = n
    · obtain ⟨s, hs, hsn⟩ := hn
      obtain rfl : s = (n, l) := Prod.ext hsn (hlistener s hs hsn)
      obtain ⟨before, after, rfl⟩ := List.append_of_mem hs
      rw [filter_append_cons hnodup, List.map_append, List.map_cons, List.map_append,
        erase_append_cons_eq_iff] at h
      obtain ⟨others, same, hsplit, hothers, hsame⟩ := h
      obtain ⟨others, same, rfl, rfl, rfl⟩ := List.map_eq_append_iff.mp hsplit
      refine .ends others same after rfl (fun s hs hsl => hothers ?_) fun s hs => ?_
      · exact List.mem_map.mpr ⟨s, hs, hsl⟩
      · exact hsame _ (List.mem_map_of_mem hs)
    · push Not at hn
      rw [filter_eq_self_of_absent hn, List.erase_eq_self_iff] at h
      exact .again fun s hs => ⟨hn s hs, fun hsl => h (List.mem_map.mpr ⟨s, hs, hsl⟩)⟩
  · rintro (⟨others, same, after, rfl, hothers, hsame⟩ | habsent)
    · rw [filter_append_cons hnodup]
      simp only [List.map_append, List.map_cons]
      refine erase_append_cons_eq_iff.mpr ⟨others.map Prod.snd, same.map Prod.snd, rfl, ?_, ?_⟩
      · rw [List.mem_map]
        rintro ⟨s, hs, hsl⟩
        exact hothers s hs hsl
      · exact List.forall_mem_map.mpr hsame
    · rw [filter_eq_self_of_absent fun s hs => (habsent s hs).1, List.erase_eq_self_iff,
        List.mem_map]
      rintro ⟨s, hs, hsl⟩
      exact (habsent s hs).2 hsl

/-! ## One call -/

/-- What one report lets a tracker tell is told to each of its listeners. -/
theorem deliveries_receive (t : Tracker) (r : Report) :
    (t.receive r).listeners = t.listeners ∧ (t.receive r).deliveries =
      t.deliveries ++ (t.told r).flatMap fun e => t.listeners.map (·, e) := by
  obtain ⟨told, hevents, hlisteners, hdeliveries, -⟩ := t.exists_receive_eq r
  have htold : t.told r = told := by rw [Tracker.told, hevents, List.drop_left]
  exact ⟨hlisteners, htold ▸ hdeliveries⟩

/-- **One call** keeps the subscriptions under numbers of their own. -/
theorem Numbered.step (h : b.Numbered) (c : TrackerCall) : (b.step c).Numbered := by
  have hbelow : ∀ s ∈ b.active, s.1 < b.made.length := fun s hs =>
    (List.getElem?_eq_some_iff.mp (h.made s hs)).1
  cases c with
  | subscribe l =>
      constructor
      · intro s hs
        rcases List.mem_append.mp hs with hs | hs
        · exact (List.getElem?_append_left (hbelow s hs)).trans (h.made s hs)
        · rw [List.mem_singleton.mp hs]
          exact List.getElem?_concat_length
      · simp only [Ledger.step, List.map_append, List.map_cons, List.map_nil]
        rw [← List.concat_eq_append]
        refine h.nodup.concat fun hmem => ?_
        obtain ⟨s, hs, hlength⟩ := List.mem_map.mp hmem
        exact (hbelow s hs).ne hlength
  | release n =>
      rw [Ledger.step]
      split
      · exact ⟨fun s hs => h.made s (List.mem_of_mem_filter hs),
          h.nodup.sublist (List.filter_sublist.map _)⟩
      · exact h
  | report r => exact ⟨h.made, h.nodup⟩

/-- A release keeps the tracker in step with the ledger just if it may be made. -/
theorem Kept.release_iff (h : b.Kept) (hnumbered : b.Numbered) (hmade : b.made[n]? = some l) :
    (b.step (.release n)).Kept ↔ MayRelease b.active n l := by
  have hlistener : ∀ s ∈ b.active, s.1 = n → s.2 = l := by
    rintro s hs rfl
    exact Option.some.inj ((hnumbered.made s hs).symm.trans hmade)
  rw [← erase_eq_iff hnumbered.nodup hlistener, ← h.listeners, Ledger.step, hmade]
  exact ⟨Kept.listeners, fun hlisteners => ⟨hlisteners, h.fulfilled⟩⟩

/-- **One call** keeps the tracker in step with the ledger, if it is no release or one that may be
made. -/
theorem Kept.step (h : b.Kept) (hnumbered : b.Numbered) (c : TrackerCall)
    (hc : ∀ n l, c = .release n → b.made[n]? = some l → MayRelease b.active n l) :
    (b.step c).Kept := by
  cases c with
  | subscribe l => exact ⟨by simp [Ledger.step, Tracker.subscribe, h.listeners], h.fulfilled⟩
  | release n =>
      cases hmade : b.made[n]? with
      | none =>
          rw [Ledger.step, hmade]
          exact h
      | some l => exact (h.release_iff hnumbered hmade).mpr (hc n l rfl hmade)
  | report r =>
      obtain ⟨hlisteners, hdeliveries⟩ := deliveries_receive b.tracker r
      refine ⟨hlisteners.trans h.listeners, hdeliveries.trans ?_⟩
      rw [h.fulfilled, h.listeners]
      simp [Ledger.step, List.map_map, Function.comp_def]

/-! ## Any calls -/

variable {calls : List TrackerCall}

theorem run_append (b : Ledger) (calls calls' : List TrackerCall) :
    b.run (calls ++ calls') = (b.run calls).run calls' := List.foldl_append

/-- **Any calls** keep the subscriptions under numbers of their own. -/
theorem Numbered.run (h : b.Numbered) (calls : List TrackerCall) : (b.run calls).Numbered := by
  induction calls generalizing b with
  | nil => exact h
  | cons c rest ih => exact ih (h.step c)

/-- Each release among the calls may be made when it is. -/
def Allows (b : Ledger) (calls : List TrackerCall) : Prop :=
  ∀ earlier n l, earlier ++ [.release n] <+: calls → (b.run earlier).made[n]? = some l →
    MayRelease (b.run earlier).active n l

/-- **Any calls** keep the tracker in step with the ledger, if each release may be made. -/
theorem Kept.run (h : b.Kept) (hnumbered : b.Numbered) (hcalls : b.Allows calls) :
    (b.run calls).Kept := by
  induction calls generalizing b with
  | nil => exact h
  | cons c rest ih =>
      have hc : ∀ n l, c = .release n → b.made[n]? = some l → MayRelease b.active n l := by
        rintro n l rfl
        exact hcalls [] n l ⟨rest, rfl⟩
      exact ih (h.step hnumbered c hc) (hnumbered.step c) fun earlier n l hprefix =>
        hcalls (c :: earlier) n l (List.cons_prefix_cons.mpr ⟨rfl, hprefix⟩)

theorem kept_of (operation : String) : (of operation).Kept := ⟨rfl, rfl⟩

theorem numbered_of (operation : String) : (of operation).Numbered := ⟨nofun, .nil⟩

/-- The tracker has the listeners of the active subscriptions if it delivers what is due whatever
is reported. A start is always told. -/
theorem kept_of_forall_isFulfilled
    (h : ∀ reports : List Report, (b.run (reports.map .report)).IsFulfilled) : b.Kept := by
  have hnow : b.tracker.deliveries = b.due := h []
  refine ⟨?_, hnow⟩
  have hstart : (b.tracker.receive (.start "")).deliveries =
      b.due ++ (b.tracker.told (.start "")).flatMap fun e => b.active.map fun s => (s.2, e) :=
    h [.start ""]
  rw [(deliveries_receive _ _).2, hnow, List.append_cancel_left_eq] at hstart
  have htold : b.tracker.told (.start "") =
      [⟨.start, 0, "Render started", b.tracker.stage, some ""⟩] := List.drop_left
  rw [htold, List.flatMap_singleton, List.flatMap_singleton] at hstart
  simpa [List.map_map, Function.comp_def] using congrArg (List.map Prod.fst) hstart

/-- **Which calls leave every delivery in order**: after each of the calls, and whatever is reported
then, every event was delivered just once for each subscription that was active, in the order of the
events and of the subscriptions, just if each release among the calls either ends an active
subscription that has no other listener between it and the first one of its own, or comes after all
subscriptions of its listener. It does not matter which listeners fail. -/
theorem isFulfilled_run_iff (operation : String) (calls : List TrackerCall) :
    (∀ earlier (reports : List Report), earlier <+: calls →
      ((of operation).run (earlier ++ reports.map .report)).IsFulfilled) ↔
      (of operation).Allows calls := by
  constructor
  · intro h earlier n l hprefix hmade
    have hkept : ∀ c, c <+: calls → ((of operation).run c).Kept := fun c hc =>
      kept_of_forall_isFulfilled fun reports => run_append _ _ _ ▸ h c reports hc
    have hbefore := hkept earlier ((List.prefix_append _ _).trans hprefix)
    rw [← hbefore.release_iff ((numbered_of operation).run earlier) hmade]
    have hafter := hkept _ hprefix
    rwa [run_append] at hafter
  · intro h earlier reports hprefix
    have hnumbered := (numbered_of operation).run earlier
    have hkept : ((of operation).run earlier).Kept :=
      (kept_of operation).run (numbered_of operation) fun e n l he => h e n l (he.trans hprefix)
    rw [run_append]
    refine (hkept.run hnumbered fun e n l he => ?_).fulfilled
    -- there is no release among the reports
    have hmem : TrackerCall.release n ∈ reports.map .report := he.subset (by simp)
    simp at hmem

/-- What one listener hears when it subscribes twice, and what its first subscription gave is called
twice: nothing, though its second subscription is active. -/
theorem not_isFulfilled_twice :
    ¬((of "").run [.subscribe ⟨1, none⟩, .subscribe ⟨1, none⟩, .release 0, .release 0,
      .report (.start "")]).IsFulfilled := nofun

/-! ## Listeners that subscribe once -/

theorem made_run (b : Ledger) (calls : List TrackerCall) :
    (b.run calls).made = b.made ++ calls.filterMap TrackerCall.subscribed? := by
  induction calls generalizing b with
  | nil => exact (List.append_nil _).symm
  | cons c rest ih =>
      rw [run, List.foldl_cons]
      refine (ih (b.step c)).trans ?_
      cases c with
      | subscribe l => simp [Ledger.step, TrackerCall.subscribed?]
      | release n =>
          have hmade : (b.step (.release n)).made = b.made := by
            rw [Ledger.step]
            split <;> rfl
          rw [hmade, List.filterMap_cons_none rfl]
      | report r => rfl

/-- Every subscription may be released, at any time, if no two of them have the same listener. -/
theorem mayRelease_of_nodup (h : b.Numbered) (hnodup : b.made.Nodup) (hmade : b.made[n]? = some l) :
    MayRelease b.active n l := by
  have hnumber : ∀ s ∈ b.active, s.2 = l → s.1 = n := by
    rintro s hs rfl
    have hs' := h.made s hs
    have hbelow : s.1 < b.made.length := (List.getElem?_eq_some_iff.mp hs').1
    exact (List.getElem?_inj hbelow hnodup).mp (hs'.trans hmade.symm)
  by_cases hn : (n, l) ∈ b.active
  · obtain ⟨before, after, hsplit⟩ := List.append_of_mem hn
    refine .ends before [] after (by rw [List.append_nil, hsplit]) (fun s hs hsl => ?_) nofun
    -- an earlier subscription of the listener would have the same number
    have hmem : s ∈ b.active := hsplit ▸ List.mem_append_left _ hs
    obtain rfl : s = (n, l) := Prod.ext (hnumber s hmem hsl) hsl
    have hnumbers := h.nodup
    rw [hsplit, List.map_append] at hnumbers
    exact (List.nodup_append.mp hnumbers).2.2 n (List.mem_map_of_mem hs) n (by simp) rfl
  · refine .again fun s hs => ?_
    have hne : s.2 ≠ l := fun hsl => by
      obtain rfl : s = (n, l) := Prod.ext (hnumber s hs hsl) hsl
      exact hn hs
    exact ⟨fun hsn => hne (Option.some.inj ((h.made s hs).symm.trans (hsn ▸ hmade))), hne⟩

/-- If no listener subscribes twice, everything that is due is delivered, and nothing else, however
often each subscription is released. -/
theorem isFulfilled_run_of_nodup (operation : String)
    (hnodup : (calls.filterMap TrackerCall.subscribed?).Nodup) :
    ((of operation).run calls).IsFulfilled := by
  have hallows : (of operation).Allows calls := fun earlier n l hprefix hmade => by
    refine mayRelease_of_nodup ((numbered_of operation).run earlier) ?_ hmade
    rw [made_run]
    exact hnodup.sublist (((List.prefix_append _ _).trans hprefix).sublist.filterMap _)
  exact ((kept_of operation).run (numbered_of operation) hallows).fulfilled

end Ledger

end Montage
