import MotiAI.Lib.Flight
import MotiAI.Variety

/-!
# Tradition variety under overlapping requests

The initial load and the presses of New Quote as requests in flight, cut at their awaits: a request
asks Anthropic, reads the quotes box, makes its pick and only then, after one more await, displays
it. The list of recent traditions is shared: a press reads it when it picks and writes it when it
displays.

1. `request_alone`: a press that runs by itself does what `generateNewQuote` does.
2. `distinct_of_fresh`: quotes keep varying in every run in which no quote is displayed while a
   press still holds an earlier pick of its tradition, and the initial load is not overtaken.
3. `not_distinct_overlap`: two presses in flight display the same tradition twice in a row.
-/

namespace MotiAI

open Dart Hive HiveQuoteService

inductive Kind where
  | load
  | press

/-- Where a request is suspended. -/
inductive Stage where
  | starting
  | asking
  | reading
  | picked (quote : Quote)
  | done

/-- What a suspended request finds when it goes on. -/
inductive Resume where
  | start (useAIQuotes : Bool)
  | answer (aiQuote : Option Quote)
  | read (stored : Box Val) (useAIQuotes : Bool) (shuffle : Shuffle Quote)
  | display

structure Request where
  kind : Kind
  stage : Stage

/-- The screen, and the requests in the order they were made, the initial load first. -/
structure World where
  session : Session := {}
  requests : List Request := [⟨.load, .starting⟩]

inductive Move where
  | newQuote
  | resume (i : ℕ) (r : Resume)

namespace Kind

/-- The traditions a request avoids, read from the screen as it is now. -/
def avoidTraditions (kind : Kind) (s : Session) : Option (List String) :=
  match kind with
  | .load => none
  | .press => some s.screen.recentTraditions

def display (kind : Kind) (quote : Quote) (s : Session) : Session :=
  match kind with
  | .load => s.displayInitial quote
  | .press => s.displayNew quote

end Kind

namespace World

section

variable [CaseMap]

/-- The part of a request up to its next await. -/
def resume (kind : Kind) (s : Session) : Stage → Resume → Option (Stage × Session)
  | .starting, .start useAIQuotes => some (if useAIQuotes then .asking else .reading, s)
  | .asking, .answer aiQuote =>
    match aiPick (kind.avoidTraditions s) true aiQuote with
    | some quote => some (.picked quote, s)
    | none => some (.reading, s)
  | .reading, .read stored useAIQuotes shuffle =>
    match localPick none none (kind.avoidTraditions s) stored useAIQuotes shuffle with
    | .ok quote => some (.picked quote, s)
    | .error _ => some (.done, s)
  | .picked quote, .display => some (.done, kind.display quote s)
  | _, _ => none

def step (w : World) : Move → Option World
  | .newQuote => some { w with requests := w.requests ++ [⟨.press, .starting⟩] }
  | .resume i r =>
    match w.requests[i]? with
    | none => none
    | some request => (resume request.kind w.session request.stage r).map fun p =>
        ⟨p.2, w.requests.set i ⟨request.kind, p.1⟩⟩

end

/-! ## The condition and the invariant -/

/-- Every read of the quotes box finds eligible quotes of four traditions. -/
def ReadsFour (_ : World) (m : Move) (_ : World) : Prop :=
  ∀ i stored useAI shuffle, m = .resume i (.read stored useAI shuffle) → 4 ≤ spread stored useAI

/-- When a quote is displayed, no other press holds a pick of its tradition that is still to be
displayed; and when the initial load displays its quote, fewer than three quotes were displayed,
none of its tradition. -/
def Fresh (w : World) (m : Move) (_ : World) : Prop :=
  ∀ i kind quote, m = .resume i .display → w.requests[i]? = some ⟨kind, .picked quote⟩ →
    (∀ j quote', j ≠ i → w.requests[j]? = some ⟨.press, .picked quote'⟩ →
      quote'.trimmedTradition ≠ quote.trimmedTradition) ∧
    (kind = .load → w.session.displayed.length < 3 ∧
      quote.trimmedTradition ∉ w.session.traditions)

/-- No quote has the trimmed tradition of one of the three displayed before it, and at most three
traditions are held. -/
def Distinct (_ : World) (_ : Move) (w : World) : Prop :=
  Window.Spaced 4 w.session.traditions ∧ w.session.screen.recentTraditions.length ≤ 3

/-- The screen is varied, and the presses that wait to display a pick still avoid. -/
structure Inv (w : World) : Prop where
  varied : w.session.Varied
  pending : ∀ (i : ℕ) (quote : Quote), w.requests[i]? = some ⟨.press, .picked quote⟩ →
    quote.trimmedTradition ∉ w.session.screen.recentTraditions

theorem Inv.distinct {w : World} (h : Inv w) (v : World) (m : Move) : Distinct v m w :=
  ⟨h.varied.spaced, h.varied.length_recent_le⟩

theorem inv_start : Inv {} where
  varied := Session.varied_start
  pending := by
    intro i quote h
    cases i with
    | zero => cases h
    | succ i => cases h

/-- After a display, the recent traditions are old ones or the displayed one. -/
theorem mem_recent_display {kind : Kind} {quote : Quote} {s : Session} {t : String}
    (h : t ∈ (kind.display quote s).screen.recentTraditions) :
    t ∈ s.screen.recentTraditions ∨ t = quote.trimmedTradition := by
  have hconcat : t ∈ s.screen.recentTraditions ++ [quote.trimmedTradition] := by
    cases kind with
    | load => exact h
    | press =>
      replace h : t ∈ Window.slide 3 s.screen.recentTraditions quote.trimmedTradition := h
      unfold Window.slide at h
      split at h
      · exact List.mem_of_mem_tail h
      · exact h
  simpa using hconcat

/-- Displaying a pick keeps the screen varied. -/
theorem Inv.display {w : World} (h : Inv w) {i : ℕ} {kind : Kind} {quote : Quote}
    (hi : w.requests[i]? = some ⟨kind, .picked quote⟩)
    (hload : kind = .load → w.session.displayed.length < 3 ∧
      quote.trimmedTradition ∉ w.session.traditions) :
    (kind.display quote w.session).Varied := by
  cases kind with
  | load =>
    obtain ⟨hlen, hnew⟩ := hload rfl
    refine h.varied.displayInitial (fun hmem => hnew ?_) hlen
    rw [h.varied.recent] at hmem
    exact (Window.suffix_rtake 3 _).subset hmem
  | press => exact h.varied.displayNew (h.pending i quote hi)

section

variable [CaseMap]

/-! ## What a step can do -/

/-- The ways a request goes on: only `display` changes the session. -/
inductive Resumes (kind : Kind) (s : Session) : Stage → Resume → Stage → Session → Prop
  | start (useAI : Bool) :
      Resumes kind s .starting (.start useAI) (if useAI then .asking else .reading) s
  | accepted {aiQuote quote} (hai : aiPick (kind.avoidTraditions s) true aiQuote = some quote) :
      Resumes kind s .asking (.answer aiQuote) (.picked quote) s
  | rejected {aiQuote} (hai : aiPick (kind.avoidTraditions s) true aiQuote = none) :
      Resumes kind s .asking (.answer aiQuote) .reading s
  | found {stored useAI shuffle quote}
      (hl : localPick none none (kind.avoidTraditions s) stored useAI shuffle = .ok quote) :
      Resumes kind s .reading (.read stored useAI shuffle) (.picked quote) s
  | failed {stored useAI shuffle e}
      (hl : localPick none none (kind.avoidTraditions s) stored useAI shuffle = .error e) :
      Resumes kind s .reading (.read stored useAI shuffle) .done s
  | display (quote : Quote) :
      Resumes kind s (.picked quote) .display .done (kind.display quote s)

theorem resumes_of_resume {kind : Kind} {s s' : Session} {stage stage' : Stage} {r : Resume}
    (h : resume kind s stage r = some (stage', s')) : Resumes kind s stage r stage' s' := by
  cases stage with
  | starting =>
    cases r with
    | start useAI =>
      obtain ⟨rfl, rfl⟩ := Prod.mk.inj (Option.some.inj h)
      exact .start useAI
    | _ => cases h
  | asking =>
    cases r with
    | answer aiQuote =>
      cases hai : aiPick (kind.avoidTraditions s) true aiQuote with
      | none =>
        simp only [resume, hai] at h
        obtain ⟨rfl, rfl⟩ := Prod.mk.inj (Option.some.inj h)
        exact .rejected hai
      | some quote =>
        simp only [resume, hai] at h
        obtain ⟨rfl, rfl⟩ := Prod.mk.inj (Option.some.inj h)
        exact .accepted hai
    | _ => cases h
  | reading =>
    cases r with
    | read stored useAI shuffle =>
      cases hl : localPick none none (kind.avoidTraditions s) stored useAI shuffle with
      | error _ =>
        simp only [resume, hl] at h
        obtain ⟨rfl, rfl⟩ := Prod.mk.inj (Option.some.inj h)
        exact .failed hl
      | ok quote =>
        simp only [resume, hl] at h
        obtain ⟨rfl, rfl⟩ := Prod.mk.inj (Option.some.inj h)
        exact .found hl
    | _ => cases h
  | picked quote =>
    cases r with
    | display =>
      obtain ⟨rfl, rfl⟩ := Prod.mk.inj (Option.some.inj h)
      exact .display quote
    | _ => cases h
  | done => cases r <;> cases h

/-- A press that picks a quote avoids the recent traditions, if its read finds four traditions. -/
theorem resume_cases {kind : Kind} {s s' : Session} {stage stage' : Stage} {r : Resume}
    (h : resume kind s stage r = some (stage', s')) :
    (s' = s ∧ ∀ quote, stage' = .picked quote → kind = .press →
      (∀ stored useAI shuffle, r = .read stored useAI shuffle → 4 ≤ spread stored useAI) →
      s.screen.recentTraditions.length ≤ 3 →
      quote.trimmedTradition ∉ s.screen.recentTraditions) ∨
    (∃ quote, r = .display ∧ stage = .picked quote ∧ stage' = .done ∧
      s' = kind.display quote s) := by
  cases resumes_of_resume h with
  | start useAI =>
    refine Or.inl ⟨rfl, fun quote hq => ?_⟩
    cases useAI <;> cases hq
  | accepted hai =>
    refine Or.inl ⟨rfl, fun quote hq hkind _ _ => ?_⟩
    cases hq
    subst hkind
    exact not_mem_of_aiPick hai
  | rejected hai => exact Or.inl ⟨rfl, fun quote hq => by cases hq⟩
  | found hl =>
    refine Or.inl ⟨rfl, fun quote hq hkind hspread hlen => ?_⟩
    cases hq
    subst hkind
    have hfour := hspread _ _ _ rfl
    exact localPick_avoids (by omega) hl
  | failed hl => exact Or.inl ⟨rfl, fun quote hq => by cases hq⟩
  | display quote => exact Or.inr ⟨quote, rfl, rfl, rfl, rfl⟩

theorem step_resume {w w' : World} {i : ℕ} {r : Resume} (h : step w (.resume i r) = some w') :
    ∃ kind stage stage' s', w.requests[i]? = some ⟨kind, stage⟩ ∧
      resume kind w.session stage r = some (stage', s') ∧
      w' = ⟨s', w.requests.set i ⟨kind, stage'⟩⟩ := by
  unfold step at h
  cases hi : w.requests[i]? with
  | none =>
    simp only [hi] at h
    cases h
  | some request =>
    simp only [hi] at h
    obtain ⟨⟨stage', s'⟩, hr, rfl⟩ := Option.map_eq_some_iff.mp h
    exact ⟨request.kind, request.stage, stage', s', rfl, hr, rfl⟩

/-! ## Runs -/

theorem Inv.step {w w' : World} {m : Move} (h : Inv w) (hs : step w m = some w')
    (hfour : ReadsFour w m w') (hfresh : Fresh w m w') : Inv w' := by
  cases m with
  | newQuote =>
    obtain rfl := Option.some.inj hs
    refine ⟨h.varied, fun i quote hi => ?_⟩
    rcases Flight.concat_cases hi with hi | ⟨-, heq⟩
    · exact h.pending i quote hi
    · cases heq
  | resume i r =>
    obtain ⟨kind, stage, stage', s', hi, hr, rfl⟩ := step_resume hs
    have hset : ∀ (j : ℕ) (quote : Quote),
        (w.requests.set i ⟨kind, stage'⟩)[j]? = some ⟨.press, .picked quote⟩ →
          (j = i ∧ kind = .press ∧ stage' = .picked quote) ∨
          (j ≠ i ∧ w.requests[j]? = some ⟨.press, .picked quote⟩) := by
      intro j quote hj
      rcases Flight.set_cases hj with ⟨hji, heq⟩ | hother
      · obtain ⟨hk, hst⟩ := Request.mk.inj heq
        exact Or.inl ⟨hji, hk.symm, hst.symm⟩
      · exact Or.inr hother
    rcases resume_cases hr with ⟨rfl, hpick⟩ | ⟨quote, rfl, rfl, rfl, rfl⟩
    · -- nothing is displayed; a new pick avoids the recent traditions
      refine ⟨h.varied, fun j quote hj => ?_⟩
      rcases hset j quote hj with ⟨-, hkind, hstage⟩ | ⟨-, hj⟩
      · refine hpick quote hstage hkind (fun stored useAI shuffle hr => ?_)
          h.varied.length_recent_le
        exact hfour i stored useAI shuffle (by rw [hr])
      · exact h.pending j quote hj
    · -- a quote is displayed; the picks still pending differ from it
      obtain ⟨hother, hload⟩ := hfresh i kind quote rfl hi
      refine ⟨h.display hi hload, fun j quote' hj hmem => ?_⟩
      rcases hset j quote' hj with ⟨-, -, hstage⟩ | ⟨hji, hj⟩
      · cases hstage
      · rcases mem_recent_display hmem with hmem | heq
        · exact h.pending j quote' hj hmem
        · exact hother j quote' hji hj heq

/-- **Tradition variety under overlapping requests.** -/
theorem distinct_of_fresh (moves : List Move) (hfour : Run.Each step ReadsFour {} moves)
    (hfresh : Run.Each step Fresh {} moves) : Run.Each step Distinct {} moves := by
  refine Run.each_of_invariant (I := Inv) (P := fun w m w' => ReadsFour w m w' ∧ Fresh w m w')
    (fun w m w' h hs hok => ?_) moves {} inv_start (hfour.and hfresh)
  have h' := h.step hs hok.1 hok.2
  exact ⟨h', h'.distinct w m⟩

/-! ## A request by itself -/

/-- The moves of request `i`, from its start to its display. -/
def aloneMoves (i : ℕ) (avoid : Option (List String)) (r : Readings) (shuffle : Shuffle Quote) :
    List Move :=
  .resume i (.start r.askAI) ::
    ((if r.askAI then [.resume i (.answer r.aiQuote)] else []) ++
      ((if (aiPick avoid r.askAI r.aiQuote).isNone then
        [.resume i (.read r.stored r.useAIQuotes shuffle)] else []) ++ [.resume i .display]))

theorem final_resume {w : World} {i : ℕ} {kind : Kind} {stage stage' : Stage} {s' : Session}
    {r : Resume} (hi : w.requests[i]? = some ⟨kind, stage⟩)
    (hr : resume kind w.session stage r = some (stage', s')) (moves : List Move) :
    ∃ requests, requests[i]? = some ⟨kind, stage'⟩ ∧
      Run.final step w (.resume i r :: moves) = Run.final step ⟨s', requests⟩ moves := by
  refine ⟨w.requests.set i ⟨kind, stage'⟩, ?_, ?_⟩
  · rw [List.getElem?_set_self (List.getElem?_eq_some_iff.mp hi).1]
  · apply Run.final_cons
    unfold step
    simp only [hi, hr, Option.map_some]

theorem final_display {w : World} {i : ℕ} {quote : Quote}
    (hi : w.requests[i]? = some ⟨.press, .picked quote⟩) :
    ∃ w', Run.final step w [.resume i .display] = some w' ∧
      w'.session = w.session.displayNew quote := by
  have hr : resume .press w.session (.picked quote) .display =
      some (.done, w.session.displayNew quote) := rfl
  obtain ⟨reqs, -, h⟩ := final_resume hi hr []
  exact ⟨_, h, rfl⟩

/-- From a local pick on. -/
theorem final_read_display {s : Session} {requests : List Request} {i : ℕ}
    (hi : requests[i]? = some ⟨.press, .reading⟩) {stored : Box Val} {useAI : Bool}
    {shuffle : Shuffle Quote} {quote : Quote}
    (hq : localPick none none (some s.screen.recentTraditions) stored useAI shuffle = .ok quote) :
    ∃ w', Run.final step ⟨s, requests⟩
        [.resume i (.read stored useAI shuffle), .resume i .display] = some w' ∧
      w'.session = s.displayNew quote := by
  have hr : resume .press s .reading (.read stored useAI shuffle) = some (.picked quote, s) := by
    simp only [resume, Kind.avoidTraditions, hq]
  obtain ⟨reqs, hi', h⟩ := final_resume (w := ⟨s, requests⟩) hi hr [.resume i .display]
  obtain ⟨w', hw', hs⟩ := final_display (w := ⟨s, reqs⟩) hi'
  exact ⟨w', h.trans hw', hs⟩

/-- **A press by itself.** Its moves in a row show what `generateNewQuote` shows. -/
theorem request_alone {w : World} {i : ℕ} (hi : w.requests[i]? = some ⟨.press, .starting⟩)
    {r : Readings} {shuffle : Shuffle Quote} {quote : Quote}
    (hq : getRandomQuoteWithTraditionVariety none none (some w.session.screen.recentTraditions) r
      shuffle = .ok quote) :
    ∃ w', Run.final step w
        (aloneMoves i (some w.session.screen.recentTraditions) r shuffle) = some w' ∧
      w'.session = w.session.generateNewQuote none none r shuffle := by
  have hgen : w.session.generateNewQuote none none r shuffle = w.session.displayNew quote := by
    unfold Session.generateNewQuote
    rw [hq]
  rw [hgen]
  unfold aloneMoves
  unfold getRandomQuoteWithTraditionVariety at hq
  cases hask : r.askAI with
  | false =>
    have hnone : aiPick (some w.session.screen.recentTraditions) false r.aiQuote = none := rfl
    rw [hask, hnone] at hq
    obtain ⟨reqs, hi', h⟩ := final_resume hi (r := .start false) rfl
      [.resume i (.read r.stored r.useAIQuotes shuffle), .resume i .display]
    obtain ⟨w', hw', hs⟩ := final_read_display hi' hq
    exact ⟨w', h.trans hw', hs⟩
  | true =>
    rw [hask] at hq
    cases hai : aiPick (some w.session.screen.recentTraditions) true r.aiQuote with
    | some aiQuote =>
      rw [hai] at hq
      cases hq
      have hr : resume .press w.session .asking (.answer r.aiQuote) =
          some (.picked quote, w.session) := by
        simp only [resume, Kind.avoidTraditions, hai]
      obtain ⟨reqs₁, hi₁, h₁⟩ := final_resume hi (r := .start true) rfl
        [.resume i (.answer r.aiQuote), .resume i .display]
      obtain ⟨reqs₂, hi₂, h₂⟩ := final_resume (w := ⟨w.session, reqs₁⟩) hi₁ hr [.resume i .display]
      obtain ⟨w', hw', hs⟩ := final_display (w := ⟨w.session, reqs₂⟩) hi₂
      exact ⟨w', h₁.trans (h₂.trans hw'), hs⟩
    | none =>
      rw [hai] at hq
      have hr : resume .press w.session .asking (.answer r.aiQuote) =
          some (.reading, w.session) := by
        simp only [resume, Kind.avoidTraditions, hai]
      obtain ⟨reqs₁, hi₁, h₁⟩ := final_resume hi (r := .start true) rfl
        [.resume i (.answer r.aiQuote), .resume i (.read r.stored r.useAIQuotes shuffle),
          .resume i .display]
      obtain ⟨reqs₂, hi₂, h₂⟩ := final_resume (w := ⟨w.session, reqs₁⟩) hi₁ hr
        [.resume i (.read r.stored r.useAIQuotes shuffle), .resume i .display]
      obtain ⟨w', hw', hs⟩ := final_read_display hi₂ hq
      exact ⟨w', h₁.trans (h₂.trans hw'), hs⟩

end

/-! ## Overlapping requests -/

theorem four_le_spread_fourTraditions (useAI : Bool) : 4 ≤ spread Session.fourTraditions useAI := by
  revert useAI
  decide +kernel

/-- A press asks while the initial load is still reading, and picks after it has displayed. -/
def orderedMoves : List Move :=
  [.resume 0 (.start false), .newQuote, .resume 1 (.start true),
    .resume 0 (.read Session.fourTraditions true .keep), .resume 0 .display,
    .resume 1 (.answer (some ⟨"ai_1", "", "", " Sufi", "", "", none⟩)), .resume 1 .display]

theorem distinct_ordered : Run.Each (@step CaseMap.ascii) Distinct {} orderedMoves := by
  refine @distinct_of_fresh CaseMap.ascii orderedMoves ?_ ?_
  · refine Run.each_of_forall_mem fun m hm _ _ i stored useAI shuffle heq => ?_
    subst heq
    have hstored : stored = Session.fourTraditions := by
      simp [orderedMoves] at hm
      tauto
    rw [hstored]
    exact four_le_spread_fourTraditions useAI
  · have hother : ∀ (w w' : World) (m : Move), (∀ i, m ≠ .resume i .display) → Fresh w m w' :=
      fun w w' m hm i kind quote heq => (hm i heq).elim
    refine fun w₁ h₁ => ⟨hother _ _ _ (by simp), fun w₂ h₂ => ⟨hother _ _ _ (by simp),
      fun w₃ h₃ => ⟨hother _ _ _ (by simp), fun w₄ h₄ => ⟨hother _ _ _ (by simp),
      fun w₅ h₅ => ⟨?_, fun w₆ h₆ => ⟨hother _ _ _ (by simp), fun w₇ h₇ => ⟨?_, trivial⟩⟩⟩⟩⟩⟩⟩
    · -- the press is still asking when the load displays
      cases h₁; cases h₂; cases h₃; cases h₄
      intro i kind quote heq hi
      cases heq
      refine ⟨fun j quote' hj hj' => ?_, fun _ => ⟨by decide, List.not_mem_nil⟩⟩
      rcases j with _ | _ | j
      · exact absurd rfl hj
      · cases hj'
      · cases hj'
    · cases h₁; cases h₂; cases h₃; cases h₄; cases h₅; cases h₆
      intro i kind quote heq hi
      cases heq
      refine ⟨fun j quote' hj hj' => ?_, fun hload => ?_⟩
      · rcases j with _ | _ | j
        · cases hj'
        · exact absurd rfl hj
        · cases hj'
      · subst hload
        cases hi

/-- The initial load displays a quote, then two presses ask, get no AI quote and read the box, the
second one before the first has displayed its pick. -/
def overlapMoves : List Move :=
  [.resume 0 (.start false), .resume 0 (.read Session.fourTraditions true .keep),
    .resume 0 .display, .newQuote, .resume 1 (.start true), .newQuote, .resume 2 (.start true),
    .resume 1 (.answer none), .resume 2 (.answer none),
    .resume 1 (.read Session.fourTraditions true .keep),
    .resume 2 (.read Session.fourTraditions true .keep),
    .resume 1 .display, .resume 2 .display]

/-- Both presses pick the same tradition, and it is displayed twice in a row. -/
theorem not_distinct_overlap :
    Run.Each (@step CaseMap.ascii) ReadsFour {} overlapMoves ∧
      ¬ Run.Each (@step CaseMap.ascii) Distinct {} overlapMoves := by
  constructor
  · refine Run.each_of_forall_mem fun m hm _ _ i stored useAI shuffle heq => ?_
    subst heq
    have hstored : stored = Session.fourTraditions := by
      simp [overlapMoves] at hm
      tauto
    rw [hstored]
    exact four_le_spread_fourTraditions useAI
  · intro hE
    obtain ⟨w, hw, ht⟩ : ∃ w, Run.final (@step CaseMap.ascii) {} overlapMoves = some w ∧
        w.session.traditions = ["Buddhist", "Stoicism", "Stoicism"] := by
      refine ⟨_, rfl, ?_⟩
      decide +kernel
    have hd : Distinct {} .newQuote w :=
      Run.Each.final (P := Distinct {} .newQuote) hE (inv_start.distinct {} .newQuote) hw
    have hnd := hd.1 _ List.infix_rfl (by rw [ht]; decide)
    rw [ht] at hnd
    exact absurd hnd (by decide)

end World

end MotiAI
