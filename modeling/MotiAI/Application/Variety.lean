import MotiAI.Application.Held

/-!
# Tradition variety in the application

`World.distinct_of_fresh` assumes of every reading of the quotes box that it finds four traditions.
In the application it does: the box is stocked.

`spaced_run`: from a fresh installation on the quotes vary, as long as none is displayed late.
-/

namespace MotiAI

open Dart Hive HiveQuoteService

namespace MotiAIApp

/-- No quote is displayed while a press holds an earlier pick of its tradition, and the initial load
is not overtaken. -/
def Timely (s : MotiAIApp) (m : AppMove) (_ : MotiAIApp) : Prop :=
  ∀ i shuffle millis, m = .display i shuffle millis →
    World.Fresh s.world (.resume i .display) s.world

/-- The quotes vary up to now and in the picks that wait. -/
structure VariedInv [CaseMap] (s : MotiAIApp) : Prop where
  stocked : Stocked s
  inv : World.Inv s.world

variable {s s' : MotiAIApp}

/-- Nothing but the displayed quotes, the recent traditions and the requests matters. -/
theorem inv_congr {w w' : World} (h : World.Inv w) (hrequests : w'.requests = w.requests)
    (hdisplayed : w'.session.displayed = w.session.displayed)
    (hrecent : w'.session.screen.recentTraditions = w.session.screen.recentTraditions) :
    World.Inv w' := by
  have htraditions : w'.session.traditions = w.session.traditions := by
    unfold Session.traditions
    rw [hdisplayed]
  constructor
  · constructor
    · rw [htraditions]
      exact h.varied.spaced
    · rw [hrecent, htraditions]
      exact h.varied.recent
  · rw [hrequests, hrecent]
    exact h.pending

theorem Backstage.inv (hb : Backstage s s') (h : World.Inv s.world) : World.Inv s'.world :=
  inv_congr h hb.requests hb.displayed hb.recentTraditions

section

variable [CaseMap]

/-- A request goes on, with four traditions in the box and in time. -/
theorem inv_resume (h : World.Inv s.world) {i : ℕ} {r : Resume} (hs : s.resume i r = some s')
    (hfour : ∀ stored useAI shuffle, r = .read stored useAI shuffle → 4 ≤ spread stored useAI)
    (hfresh : World.Fresh s.world (.resume i r) s.world) : World.Inv s'.world := by
  obtain ⟨world, hw, rfl⟩ := Option.map_eq_some_iff.mp hs
  refine h.step hw (fun j stored useAI shuffle hm => ?_) hfresh
  obtain ⟨-, rfl⟩ := Move.resume.inj hm
  exact hfour stored useAI shuffle rfl

omit [CaseMap] in
/-- Before the display a request has nothing to be late for. -/
theorem fresh_of_ne_display {w : World} {i : ℕ} {r : Resume} (hr : r ≠ .display) :
    World.Fresh w (.resume i r) w := by
  intro j kind quote hm
  exact absurd (Move.resume.inj hm).2 hr

theorem inv_displayQuote (h : World.Inv s.world) {i : ℕ} {shuffle : Shuffle String} {millis : ℕ}
    (hs : s.displayQuote i shuffle millis = some s')
    (hfresh : World.Fresh s.world (.resume i .display) s.world) : World.Inv s'.world := by
  obtain ⟨kind, quote, s₁, s₂, -, h₁, h₂, rfl⟩ := displayQuote_cases hs
  obtain ⟨s₃, stage, hb, rfl⟩ := generateBackgroundImage_spec h₂
  have hinv : World.Inv s₃.world := hb.inv (inv_resume h h₁ (by simp) hfresh)
  unfold fetchNextAIQuote
  split <;> exact hinv

theorem VariedInv.step [NumText] (h : VariedInv s) {m : AppMove} (hs : s.step m = some s')
    (ht : Timely s m s') : VariedInv s' := by
  refine ⟨h.stocked.step hs, ?_⟩
  cases hm : m.isBackstage with
  | true => exact (backstage_step hm hs).inv h.inv
  | false =>
    cases onstage_of_step hm hs with
    | newQuote =>
      exact World.Inv.step (m := .newQuote) h.inv rfl (by rintro _ _ _ _ ⟨⟩) (by rintro _ _ _ ⟨⟩)
    | resumed hm hr hdisplay hanswer hread =>
      refine inv_resume h.inv hr (fun stored useAI shuffle heq => ?_) (fresh_of_ne_display hdisplay)
      obtain rfl := hread stored useAI shuffle heq
      exact h.stocked.stock.four_le_spread useAI
    | @answered i turn q _ hq hr =>
      exact inv_resume (s := { s with quotes := addQuote q s.quotes }) h.inv hr (by simp)
        (fresh_of_ne_display (by simp))
    | displayed hs => exact inv_displayQuote h.inv hs (ht _ _ _ rfl)
    | desk he => cases he <;> exact h.inv
    | restarted hs => exact World.inv_start
    | _ => exact h.inv

end

/-! ## The first quote -/

/-- The initial load without a key. -/
def firstQuote : List AppMove :=
  [.start 0, .answer 0 ⟨.missing, .throws, 0, 0, 0, false⟩, .read 0 .keep]

end MotiAIApp

end MotiAI
