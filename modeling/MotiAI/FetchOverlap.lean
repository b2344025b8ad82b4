import MotiAI.FetchQuote
import MotiAI.Lib.Flight
import MotiAI.Lib.Run

/-!
# Overlapping fetches

Any number of `fetchQuoteFromAnthropic` calls in flight, over one quotes box and one millisecond
clock. A call awaits its request, then the write of the quote it accepted; the entry is in the box
as soon as the write is issued.

`kept_of_unclaimed`: a returned quote keeps its text in the box until it is removed, as long as no
answer is accepted in the very millisecond that named a quote which is still there.
-/

namespace MotiAI

open Dart Hive HiveQuoteService

/-- Where a call stands: it awaits the answer to a request sent with a key, or the write of a quote,
or has returned. -/
inductive FetchStage where
  | asking (key : EnvEntry)
  | storing (aiQuote : Quote)
  | returned (result : Option Quote)

/-- The quotes box, the clock and the calls so far; `unremoved` collects the quotes stored by calls,
up to a `removeQuote` for them. -/
structure Fetches where
  quotes : Box Val
  now : ℤ
  calls : List FetchStage := []
  unremoved : List Quote := []

/-- `answer` is the reply to the request of call `i`, `finish` the end of its write. The key of the
turn is the one the request was sent with. -/
inductive FetchMove where
  | start (key : EnvEntry)
  | answer (i : ℕ) (turn : FetchTurn)
  | finish (i : ℕ)
  | tick (millis : ℤ)
  | removeQuote (id : String)
  | saveAffirmation (quoteId affirmation : String)

namespace Fetches

/-- The clock does not go back while it is read. -/
def Clocked (now : ℤ) (turn : FetchTurn) : Prop :=
  now ≤ turn.traditionMillis ∧ turn.traditionMillis ≤ turn.authorMillis ∧
    turn.authorMillis ≤ turn.idMillis

instance (now : ℤ) (turn : FetchTurn) : Decidable (Clocked now turn) :=
  inferInstanceAs (Decidable (_ ∧ _ ∧ _))

section

variable [CaseMap] [NumText]

def step (f : Fetches) : FetchMove → Option Fetches
  | .start key =>
    some { f with
      calls := f.calls ++ [if hasKey key then .asking key else .returned none] }
  | .answer i turn =>
    match f.calls[i]? with
    | some (.asking key) =>
      if Clocked f.now turn then
        match (fetchQuoteFromAnthropic { turn with key := key }).run f.quotes with
        | .ok none quotes =>
          some { f with
            quotes := quotes, now := turn.idMillis, calls := f.calls.set i (.returned none) }
        | .ok (some aiQuote) quotes =>
          some { f with
            quotes := quotes
            now := turn.idMillis
            calls := f.calls.set i (.storing aiQuote)
            unremoved := aiQuote :: f.unremoved }
        | .error _ _ => none
      else none
    | _ => none
  | .finish i =>
    match f.calls[i]? with
    | some (.storing aiQuote) =>
      some { f with calls := f.calls.set i (.returned (some aiQuote)) }
    | _ => none
  | .tick millis => if f.now ≤ millis then some { f with now := millis } else none
  | .removeQuote id =>
    some { f with
      quotes := f.quotes.erase id, unremoved := f.unremoved.filter fun q => q.id ≠ id }
  | .saveAffirmation quoteId affirmation =>
    (saveAffirmationToQuote quoteId affirmation f.quotes).map fun quotes =>
      { f with quotes := quotes }

/-! ## Specification -/

/-- The box holds a quote with this id and text. -/
def Holds (b : Box Val) (q : Quote) : Prop :=
  ∃ q', b[q.id]? = some (.object q') ∧ q'.text = q.text

/-- Every quote that a call returned and that has not been removed is in the box with its text. -/
def Kept (_ : Fetches) (_ : FetchMove) (f' : Fetches) : Prop :=
  ∀ q, FetchStage.returned (some q) ∈ f'.calls → q ∈ f'.unremoved → Holds f'.quotes q

/-- The answer is one that is accepted. -/
def Accepted (turn : FetchTurn) : Prop :=
  ∃ body q, turn.reply = .response 200 body ∧ acceptAnswer body turn = some (some q)

/-- An answer is accepted in a millisecond that gave no unremoved quote its id. -/
def Unclaimed (f : Fetches) (m : FetchMove) (_ : Fetches) : Prop :=
  ∀ i turn, m = .answer i turn → Accepted turn →
    ∀ q ∈ f.unremoved, q.id ≠ "ai_" ++ toString turn.idMillis

/-! ## What a step keeps -/

/-- What has been stored and not removed is in the box. -/
def AllHeld (f : Fetches) : Prop := ∀ q ∈ f.unremoved, Holds f.quotes q

omit [CaseMap] [NumText] in
theorem Holds.of_getElem?_eq {b b' : Box Val} {q : Quote} (h : Holds b q)
    (heq : b'[q.id]? = b[q.id]?) : Holds b' q := by
  obtain ⟨q', hq', htext⟩ := h
  exact ⟨q', heq.trans hq', htext⟩

omit [CaseMap] [NumText] in
theorem getElem?_addQuote (q : Quote) (b : Box Val) : (addQuote q b)[q.id]? = some (.object q) := by
  show (b.insert q.id (.object q))[q.id]? = _
  rw [Box.getElem?_put, if_pos rfl]

omit [CaseMap] [NumText] in
/-- Saving an affirmation keeps the texts. -/
theorem Holds.saveAffirmationToQuote {b b' : Box Val} {q : Quote} (h : Holds b q)
    {quoteId affirmation : String}
    (hs : HiveQuoteService.saveAffirmationToQuote quoteId affirmation b = some b') :
    Holds b' q := by
  unfold HiveQuoteService.saveAffirmationToQuote at hs
  split at hs
  · obtain rfl := Option.some.inj hs
    exact h
  · obtain rfl := Option.some.inj hs
    exact h
  · rename_i quote hquote
    obtain rfl := Option.some.inj hs
    obtain ⟨q', hq', htext⟩ := h
    by_cases hid : q.id = quoteId
    · rw [hid, hquote] at hq'
      obtain rfl := Json.object.inj (Option.some.inj hq')
      exact ⟨{ quote with affirmation := some affirmation },
        by rw [Box.getElem?_put, if_pos hid.symm], htext⟩
    · exact ⟨q', by rw [Box.getElem?_put, if_neg (Ne.symm hid), hq'], htext⟩
  · cases hs

variable {f f' : Fetches} {m : FetchMove}

theorem AllHeld.step (h : AllHeld f) (hs : step f m = some f') (hm : Unclaimed f m f') :
    AllHeld f' := by
  cases m with
  | start key =>
    obtain rfl := Option.some.inj hs
    exact h
  | answer i turn =>
    simp only [step] at hs
    split at hs
    · rename_i key hi
      split at hs
      · rcases fetchQuoteFromAnthropic_cases { turn with key := key } f.quotes with
          hrun | ⟨body, aiQuote, hreply, haccept, hrun⟩
        · rw [hrun] at hs
          obtain rfl := Option.some.inj hs
          exact h
        · rw [hrun] at hs
          obtain rfl := Option.some.inj hs
          intro q hq
          rcases List.mem_cons.mp hq with rfl | hq
          · exact ⟨q, getElem?_addQuote q f.quotes, rfl⟩
          · have hne := hm i turn rfl ⟨body, aiQuote, hreply, haccept⟩ q hq
            rw [← (acceptAnswer_eq_some haccept).2] at hne
            refine (h q hq).of_getElem?_eq ?_
            show (f.quotes.insert aiQuote.id (.object aiQuote))[q.id]? = _
            rw [Box.getElem?_put, if_neg (Ne.symm hne)]
      · cases hs
    · cases hs
  | finish i =>
    simp only [step] at hs
    split at hs
    · obtain rfl := Option.some.inj hs
      exact h
    · cases hs
  | tick millis =>
    simp only [step] at hs
    split at hs
    · obtain rfl := Option.some.inj hs
      exact h
    · cases hs
  | removeQuote id =>
    obtain rfl := Option.some.inj hs
    intro q hq
    obtain ⟨hq, hne⟩ := List.mem_filter.mp hq
    refine (h q hq).of_getElem?_eq ?_
    show (f.quotes.erase id)[q.id]? = _
    rw [Box.getElem?_delete, if_neg (Ne.symm (of_decide_eq_true hne))]
  | saveAffirmation quoteId affirmation =>
    simp only [step] at hs
    obtain ⟨quotes, hquotes, rfl⟩ := Option.map_eq_some_iff.mp hs
    exact fun q hq => (h q hq).saveAffirmationToQuote hquotes

/-- **A returned quote stays.** In a run in which no answer is accepted in the millisecond of a
quote that is still there, every returned quote keeps its text in the box until it is removed. -/
theorem kept_of_unclaimed (quotes : Box Val) (now : ℤ) (moves : List FetchMove)
    (h : Run.Each step Unclaimed { quotes := quotes, now := now } moves) :
    Run.Each step Kept { quotes := quotes, now := now } moves := by
  refine Run.each_of_invariant (I := AllHeld) (P := Unclaimed) (fun f m f' hf hs hm => ?_) moves _
    (fun q hq => absurd hq List.not_mem_nil) h
  have hf' := hf.step hs hm
  exact ⟨hf', fun q _ hq => hf' q hq⟩

theorem step_start {key : EnvEntry} (hkey : hasKey key = true) :
    step f (.start key) = some { f with calls := f.calls ++ [.asking key] } := by
  show some _ = _
  rw [if_pos hkey]

/-- A request is answered with an acceptable text. -/
theorem step_answer {i : ℕ} {key : EnvEntry} {turn : FetchTurn} {body : String} {q : Quote}
    (hi : f.calls[i]? = some (.asking key)) (hclock : Clocked f.now turn)
    (hkey : hasKey key = true) (hreply : turn.reply = .response 200 body)
    (hput : turn.putThrows = false) (haccept : acceptAnswer body turn = some (some q)) :
    step f (.answer i turn) = some { f with
      quotes := addQuote q f.quotes
      now := turn.idMillis
      calls := f.calls.set i (.storing q)
      unremoved := q :: f.unremoved } := by
  have hrun : (fetchQuoteFromAnthropic { turn with key := key }).run f.quotes =
      .ok (some q) (addQuote q f.quotes) :=
    @fetchQuoteFromAnthropic_of_accept _ _ { turn with key := key } body q hkey hreply hput haccept
      f.quotes
  simp only [step, hi, if_pos hclock, hrun]

end

/-! ## Two answers in one millisecond -/

/-- An answer in the usual form, with the clock at rest. -/
def answerAt (text : String) (millis : ℤ) : FetchTurn where
  key := .missing
  reply := .response 200 (answerBody text)
  traditionMillis := millis
  authorMillis := millis
  idMillis := millis
  putThrows := false

/-- Two requests; the first is answered and returns its quote. -/
def firstMoves : List FetchMove :=
  [.start (.value "sk-1"), .start (.value "sk-1"), .answer 0 (answerAt "Blaze on" 7), .finish 0]

/-- What comes of an answer in millisecond 7. -/
def quoteAt (text : String) : Quote where
  id := "ai_7"
  text := text
  author := "Bill Gates"
  tradition := "Mindful Tech"
  category := "Inspiration"

theorem buildQuote_answerAt (text : String) :
    buildQuote text (answerAt text 7) = some (quoteAt text) := by
  have htradition : pickAt authenticTraditions 7 = some "Mindful Tech" := by decide +kernel
  have hauthors : (authorTraditionMap.lookup "Mindful Tech").getD ["Buddha"] =
      ["Steve Jobs", "Bill Gates", "Albert Einstein"] := by decide +kernel
  have hauthor : pickAt ["Steve Jobs", "Bill Gates", "Albert Einstein"] 7 = some "Bill Gates" := by
    decide +kernel
  have hid : "ai_" ++ toString (7 : ℤ) = "ai_7" := by decide +kernel
  unfold buildQuote answerAt quoteAt
  simp only [htradition, hauthors, hauthor, hid, Option.bind_eq_bind, Option.bind_some]
  rfl

theorem acceptAnswer_blaze : @acceptAnswer CaseMap.ascii NumText.literal (answerBody "Blaze on")
    (answerAt "Blaze on" 7) = some (some (quoteAt "Blaze on")) := by
  have hfamous : @isFamousQuote CaseMap.ascii "Blaze on" = false :=
    @isFamousQuote_of_short CaseMap.ascii "Blaze on" (by decide +kernel) (by decide +kernel)
  rw [@acceptAnswer_answerBody CaseMap.ascii NumText.literal "Blaze on" _ (by decide +kernel)
    (by decide) (by decide) (by decide) hfamous, buildQuote_answerAt]
  rfl

theorem acceptAnswer_seize : @acceptAnswer CaseMap.ascii NumText.literal (answerBody "Seize it")
    (answerAt "Seize it" 7) = some (some (quoteAt "Seize it")) := by
  have hfamous : @isFamousQuote CaseMap.ascii "Seize it" = false :=
    @isFamousQuote_of_short CaseMap.ascii "Seize it" (by decide +kernel) (by decide +kernel)
  rw [@acceptAnswer_answerBody CaseMap.ascii NumText.literal "Seize it" _ (by decide +kernel)
    (by decide) (by decide) (by decide) hfamous, buildQuote_answerAt]
  rfl

/-- The first request has returned its quote, the second waits. -/
def firstReturned : Fetches where
  quotes := addQuote (quoteAt "Blaze on") ∅
  now := 7
  calls := [.returned (some (quoteAt "Blaze on")), .asking (.value "sk-1")]
  unremoved := [quoteAt "Blaze on"]

theorem final_firstMoves :
    Run.final (@step CaseMap.ascii NumText.literal) { quotes := ∅, now := 0 } firstMoves =
      some firstReturned := by
  unfold firstMoves
  rw [Run.final_cons (@step_start CaseMap.ascii NumText.literal _ _ rfl),
    Run.final_cons (@step_start CaseMap.ascii NumText.literal _ _ rfl),
    Run.final_cons (@step_answer CaseMap.ascii NumText.literal _ _ _ _ _ _ rfl (by decide) rfl rfl
      rfl acceptAnswer_blaze)]
  rfl

/-- The second quote replaces the first, which had been returned. -/
theorem not_kept_same_millis :
    ¬ Run.Each (@step CaseMap.ascii NumText.literal) Kept { quotes := ∅, now := 0 }
      (firstMoves ++ [.answer 1 (answerAt "Seize it" 7)]) := by
  intro h
  have hlast := ((Run.each_cons_of_step (@step_answer CaseMap.ascii NumText.literal _ _ _ _ _ _
    rfl (by decide) rfl rfl rfl acceptAnswer_seize)).mp
    ((Run.each_append final_firstMoves).mp h).2).1
  obtain ⟨q', hq', htext⟩ := hlast (quoteAt "Blaze on") List.mem_cons_self
    (List.mem_cons_of_mem _ List.mem_cons_self)
  have hseize := getElem?_addQuote (quoteAt "Seize it") firstReturned.quotes
  obtain rfl := Json.object.inj (Option.some.inj (hseize.symm.trans hq'))
  exact absurd htext (by decide)

/-- A millisecond later the first quote stays. -/
theorem kept_next_milli :
    Run.Each (@step CaseMap.ascii NumText.literal) Kept { quotes := ∅, now := 0 }
      (firstMoves ++ [.answer 1 (answerAt "Seize it" 8)]) := by
  refine @kept_of_unclaimed CaseMap.ascii NumText.literal ∅ 0 _
    ((Run.each_append final_firstMoves).mpr ⟨?_, ?_⟩)
  · unfold firstMoves
    intro s₁ h₁
    obtain rfl := Option.some.inj h₁
    refine ⟨by rintro i turn ⟨⟩, fun s₂ h₂ => ?_⟩
    obtain rfl := Option.some.inj h₂
    refine ⟨by rintro i turn ⟨⟩, fun s₃ h₃ => ⟨?_, fun s₄ h₄ => ⟨by rintro i turn ⟨⟩, trivial⟩⟩⟩
    exact fun i turn h _ q hq => absurd hq List.not_mem_nil
  · refine fun s' h' => ⟨fun i turn h _ q hq => ?_, trivial⟩
    obtain ⟨rfl, rfl⟩ := FetchMove.answer.inj h
    obtain rfl := List.mem_singleton.mp hq
    decide +kernel

end Fetches

end MotiAI
