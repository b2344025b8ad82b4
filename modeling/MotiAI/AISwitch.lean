import MotiAI.ApiKey
import MotiAI.VarietyOverlap

/-!
# The AI switch

The screen with its requests in flight, the quotes box and the background fetches: after every
quote it displays, the screen starts to fetch the next AI quote. The selectors consult
`useAIQuotes`, the background fetch does not.

`honoured_iff`: with the switch off, a run displays no AI quote, sends no request and stores no AI
quote exactly when no quote is displayed while a key is configured.
-/

namespace MotiAI

open Dart Hive HiveQuoteService

/-- What an accepted answer of Anthropic leads to: the cleaned text, the author and the tradition,
and the clock. -/
structure AIAnswer where
  text : String
  author : String
  tradition : String
  millis : ℕ

/-- The quote `fetchQuoteFromAnthropic` builds. -/
def AIAnswer.quote (a : AIAnswer) : Quote where
  id := "ai_" ++ toString a.millis
  text := a.text
  author := a.author
  tradition := a.tradition
  category := "Inspiration"
  imageUrl := ""
  affirmation := none

/-- `quote.id.startsWith('ai_')`. -/
def Quote.isAI (q : Quote) : Bool := startsWith q.id "ai_"

/-- The screen and its requests, the quotes box, the quote requests sent to Anthropic so far, and
the background fetches that wait for their answer. -/
structure Feed where
  world : World := {}
  quotes : Box Val
  sent : ℕ := 0
  pending : ℕ := 0

/-- `start`, `answer`, `read` and `display` resume the request `i` for a quote to show; `fetched` is
the answer to a background fetch. -/
inductive FeedMove where
  | newQuote
  | start (i : ℕ)
  | answer (i : ℕ) (result : Option AIAnswer)
  | read (i : ℕ) (shuffle : Shuffle Quote)
  | display (i : ℕ)
  | fetched (result : Option AIAnswer)

namespace Feed

/-- The part of `_fetchNextAIQuote` up to its await. -/
def fetchNextAIQuote (key : EnvEntry) (f : Feed) : Feed :=
  if hasKey key then { f with sent := f.sent + 1, pending := f.pending + 1 } else f

section

variable [CaseMap] (useAIQuotes : Bool) (key : EnvEntry)

def step (f : Feed) : FeedMove → Option Feed
  | .newQuote => (f.world.step .newQuote).map fun w => { f with world := w }
  | .start i =>
    (f.world.step (.resume i (.start useAIQuotes))).map fun w =>
      { f with world := w, sent := if useAIQuotes && hasKey key then f.sent + 1 else f.sent }
  | .answer i result =>
    if result.isSome && !hasKey key then none
    else
      (f.world.step (.resume i (.answer (result.map AIAnswer.quote)))).map fun w =>
        { f with world := w, quotes := storeFetched (result.map AIAnswer.quote) f.quotes }
  | .read i shuffle =>
    (f.world.step (.resume i (.read f.quotes useAIQuotes shuffle))).map fun w =>
      { f with world := w }
  | .display i =>
    (f.world.step (.resume i .display)).map fun w => fetchNextAIQuote key { f with world := w }
  | .fetched result =>
    if f.pending = 0 then none
    else some { f with
      pending := f.pending - 1
      quotes := storeFetched (result.map AIAnswer.quote) f.quotes }

end

/-- No AI quote has been displayed, no request is sent, and the quotes box gains no AI entry. -/
structure Honoured (f : Feed) (_ : FeedMove) (f' : Feed) : Prop where
  displayed : ∀ quote ∈ f'.world.session.displayed, quote.isAI = false
  sent : f'.sent = f.sent
  quotes : ∀ id ∈ f'.quotes, startsWith id "ai_" = true → id ∈ f.quotes

/-- No quote is displayed while a key is configured. -/
def Keyless (key : EnvEntry) (_ : Feed) (m : FeedMove) (_ : Feed) : Prop :=
  ∀ i, m = .display i → hasKey key = false

/-- A request that has not asked Anthropic and holds no AI quote. -/
def LocalStage : Stage → Prop
  | .asking => False
  | .picked quote => quote.isAI = false
  | _ => True

/-- Nothing of the screen comes from Anthropic. -/
structure Local (f : Feed) : Prop where
  pending : f.pending = 0
  requests : ∀ r ∈ f.world.requests, LocalStage r.stage
  displayed : ∀ quote ∈ f.world.session.displayed, quote.isAI = false

theorem local_start (quotes : Box Val) : Local { quotes := quotes } where
  pending := rfl
  requests := by
    intro r hr
    obtain rfl := List.mem_singleton.mp hr
    trivial
  displayed := fun quote hq => absurd hq List.not_mem_nil

theorem LocalStage.set {requests : List Request} (h : ∀ r ∈ requests, LocalStage r.stage) (i : ℕ)
    {kind : Kind} {stage : Stage} (hstage : LocalStage stage) :
    ∀ r ∈ requests.set i ⟨kind, stage⟩, LocalStage r.stage := by
  intro r hr
  rcases List.mem_or_eq_of_mem_set hr with hr | rfl
  · exact h r hr
  · exact hstage

/-! ## Local picks -/

theorem isAI_of_mem_eligible {quotes : List Quote} {q : Quote} (h : q ∈ eligible false quotes) :
    q.isAI = false := by
  have := (List.mem_filter.mp h).2
  simpa [Quote.isAI] using this

section

variable [CaseMap]

/-- With the switch off neither the filtered quotes nor the fallback hold an AI quote. -/
theorem isAI_of_localPick {category tradition : Option String} {avoid : Option (List String)}
    {stored : Box Val} {shuffle : Shuffle Quote} {q : Quote}
    (h : localPick category tradition avoid stored false shuffle = .ok q) : q.isAI = false := by
  unfold localPick at h
  cases hall : getAllQuotes stored with
  | none =>
    rw [hall] at h
    cases h
  | some allQuotes =>
    rw [hall] at h
    dsimp only at h
    split at h
    · cases h
    · apply isAI_of_mem_eligible
      exact mem_fallback_of_pickOne
        (fun q hq => (mem_avoiding_iff.mp (mem_filters.mp hq).1).1) h

/-! ## What a step can do -/

/-- A request goes on without an AI quote, with the switch off: only `display` displays, and what it
displays is local. -/
theorem local_resume {w w' : World} {i : ℕ} {r : Resume}
    (hreq : ∀ r ∈ w.requests, LocalStage r.stage)
    (hdisp : ∀ quote ∈ w.session.displayed, quote.isAI = false)
    (hstart : ∀ useAI, r = .start useAI → useAI = false)
    (hread : ∀ stored useAI shuffle, r = .read stored useAI shuffle → useAI = false)
    (h : w.step (.resume i r) = some w') :
    (∀ r ∈ w'.requests, LocalStage r.stage) ∧
      ∀ quote ∈ w'.session.displayed, quote.isAI = false := by
  obtain ⟨kind, stage, stage', s', hi, hr, rfl⟩ := World.step_resume h
  have hlocal : LocalStage stage := hreq _ (List.mem_of_getElem? hi)
  cases World.resumes_of_resume hr with
  | start useAI =>
    rw [hstart useAI rfl]
    exact ⟨LocalStage.set hreq i trivial, hdisp⟩
  | accepted hai => exact hlocal.elim
  | rejected hai => exact hlocal.elim
  | found hl =>
    obtain rfl := hread _ _ _ rfl
    exact ⟨LocalStage.set hreq i (isAI_of_localPick hl), hdisp⟩
  | failed hl => exact ⟨LocalStage.set hreq i trivial, hdisp⟩
  | display quote =>
    refine ⟨LocalStage.set hreq i trivial, fun quote' hq => ?_⟩
    have hmem : quote' ∈ w.session.displayed ++ [quote] := by
      cases kind <;> exact hq
    rcases List.mem_append.mp hmem with hq | hq
    · exact hdisp quote' hq
    · obtain rfl := List.mem_singleton.mp hq
      exact hlocal

/-- No request waits for an answer of its own. -/
theorem not_answer {w w' : World} {i : ℕ} {aiQuote : Option Quote}
    (hreq : ∀ r ∈ w.requests, LocalStage r.stage)
    (h : w.step (.resume i (.answer aiQuote)) = some w') : False := by
  obtain ⟨kind, stage, stage', s', hi, hr, -⟩ := World.step_resume h
  have hlocal : LocalStage stage := hreq _ (List.mem_of_getElem? hi)
  cases World.resumes_of_resume hr with
  | accepted hai => exact hlocal
  | rejected hai => exact hlocal

variable {key : EnvEntry} {f f' : Feed} {m : FeedMove}

/-- Up to the request a display sends, a step keeps everything local. -/
theorem Local.step_cases (h : Local f) (hs : step false key f m = some f') :
    f'.quotes = f.quotes ∧ (∀ r ∈ f'.world.requests, LocalStage r.stage) ∧
    (∀ quote ∈ f'.world.session.displayed, quote.isAI = false) ∧
    ((∀ i, m ≠ .display i) ∧ f'.sent = f.sent ∧ f'.pending = 0 ∨
      ∃ i w, m = .display i ∧ f' = fetchNextAIQuote key { f with world := w }) := by
  cases m with
  | newQuote =>
    simp only [step] at hs
    obtain ⟨w, hw, rfl⟩ := Option.map_eq_some_iff.mp hs
    obtain rfl := Option.some.inj hw
    refine ⟨rfl, fun r hr => ?_, h.displayed, Or.inl ⟨by simp, rfl, h.pending⟩⟩
    rcases List.mem_append.mp hr with hr | hr
    · exact h.requests r hr
    · obtain rfl := List.mem_singleton.mp hr
      trivial
  | start i =>
    simp only [step] at hs
    obtain ⟨w, hw, rfl⟩ := Option.map_eq_some_iff.mp hs
    obtain ⟨hreq, hdisp⟩ := local_resume h.requests h.displayed
      (fun useAI he => (Resume.start.inj he).symm) (by simp) hw
    exact ⟨rfl, hreq, hdisp, Or.inl ⟨by simp, rfl, h.pending⟩⟩
  | answer i result =>
    simp only [step] at hs
    split at hs
    · cases hs
    · obtain ⟨w, hw, -⟩ := Option.map_eq_some_iff.mp hs
      exact (not_answer h.requests hw).elim
  | read i shuffle =>
    simp only [step] at hs
    obtain ⟨w, hw, rfl⟩ := Option.map_eq_some_iff.mp hs
    obtain ⟨hreq, hdisp⟩ := local_resume h.requests h.displayed (by simp)
      (fun stored useAI shuffle' he => (Resume.read.inj he).2.1.symm) hw
    exact ⟨rfl, hreq, hdisp, Or.inl ⟨by simp, rfl, h.pending⟩⟩
  | display i =>
    simp only [step] at hs
    obtain ⟨w, hw, rfl⟩ := Option.map_eq_some_iff.mp hs
    obtain ⟨hreq, hdisp⟩ := local_resume h.requests h.displayed (by simp) (by simp) hw
    unfold fetchNextAIQuote
    split
    · exact ⟨rfl, hreq, hdisp, Or.inr ⟨i, w, rfl, rfl⟩⟩
    · exact ⟨rfl, hreq, hdisp, Or.inr ⟨i, w, rfl, rfl⟩⟩
  | fetched result =>
    simp only [step] at hs
    rw [if_pos h.pending] at hs
    cases hs

/-- A step honours the switch exactly when it displays nothing or no key is configured. -/
theorem Local.honoured_iff_keyless (h : Local f) (hs : step false key f m = some f') :
    Honoured f m f' ↔ Keyless key f m f' := by
  obtain ⟨hquotes, -, hdisp, hm⟩ := h.step_cases hs
  have hbox : ∀ id ∈ f'.quotes, startsWith id "ai_" = true → id ∈ f.quotes := by
    intro id hid _
    rwa [hquotes] at hid
  rcases hm with ⟨hne, hsent, -⟩ | ⟨i, w, rfl, rfl⟩
  · exact ⟨fun _ i hi => absurd hi (hne i), fun _ => ⟨hdisp, hsent, hbox⟩⟩
  · constructor
    · rintro ⟨-, hsent, -⟩ j -
      by_contra hkey
      unfold fetchNextAIQuote at hsent
      rw [if_pos (by simpa using hkey)] at hsent
      exact absurd hsent (Nat.succ_ne_self f.sent)
    · intro hkey
      refine ⟨hdisp, ?_, hbox⟩
      unfold fetchNextAIQuote
      rw [hkey i rfl]
      rfl

theorem Local.step (h : Local f) (hs : step false key f m = some f') (hm : Keyless key f m f') :
    Local f' := by
  obtain ⟨-, hreq, hdisp, ⟨-, -, hpending⟩ | ⟨i, w, rfl, rfl⟩⟩ := h.step_cases hs
  · exact ⟨hpending, hreq, hdisp⟩
  · refine ⟨?_, hreq, hdisp⟩
    unfold fetchNextAIQuote
    rw [hm i rfl]
    exact h.pending

/-- **The AI switch.** With the switch off, a run honours it exactly when no quote is displayed
while a key is configured. -/
theorem honoured_iff (key : EnvEntry) (quotes : Box Val) (moves : List FeedMove) :
    Run.Each (Feed.step false key) Honoured { quotes := quotes } moves ↔
      Run.Each (Feed.step false key) (Keyless key) { quotes := quotes } moves :=
  Run.each_iff_of_invariant (I := Local) (P := Keyless key) (Q := Honoured)
    (fun _ _ _ h hs => h.honoured_iff_keyless hs) (fun _ _ _ h hs hm => h.step hs hm) moves _
    (local_start quotes)

end

/-! ## A configured key -/

/-- The initial load shows a local quote, and the background fetch gets an answer. -/
def fetchMoves : List FeedMove :=
  [.start 0, .read 0 .keep, .display 0, .fetched (some ⟨"Be the river.", "Rumi", "Sufi", 5⟩)]

/-- One local quote. -/
def oneQuote : Box Val := addQuote ⟨"zen_1", "", "", "Zen", "", "", none⟩ ∅

/-- The run sends a request and stores an AI quote. -/
theorem not_honoured_fetch :
    (∃ f, Run.final (@step CaseMap.ascii false (.value "sk-1")) { quotes := oneQuote } fetchMoves =
      some f ∧ f.sent = 1 ∧ "ai_5" ∈ f.quotes) ∧
    ¬ Run.Each (@step CaseMap.ascii false (.value "sk-1")) Honoured { quotes := oneQuote }
      fetchMoves := by
  have hfinal : ∃ f, Run.final (@step CaseMap.ascii false (.value "sk-1")) { quotes := oneQuote }
      fetchMoves = some f ∧ f.sent = 1 ∧ "ai_5" ∈ f.quotes := ⟨_, rfl, rfl, by decide +kernel⟩
  refine ⟨hfinal, fun hE => ?_⟩
  obtain ⟨f, hf, hsent, -⟩ := hfinal
  have hsame := Run.Each.final_eq (f := Feed.sent) (hE.imp fun _ _ _ h => h.sent) hf
  rw [hsent] at hsame
  exact absurd hsame (by decide)

end Feed

end MotiAI
