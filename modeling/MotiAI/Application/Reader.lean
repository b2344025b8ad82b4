import MotiAI.Application.Notes
import MotiAI.Application.Variety
import MotiAI.Favorites
import MotiAI.Lib.Simulation

/-!
# What the reader keeps

What the application is for: a reader sees quotes, marks the one on the screen as a favorite, and notes
affirmations for it. `Reader` says this without boxes, requests and awaits; it remembers all that was
seen and saved, also over restarts.

1. `Kept`: whatever is kept belongs to a quote that was seen.
2. `mem_favorites_foldl`: a favorite is what was marked an odd number of times.
3. `forward`: the application does what the reader expects.
4. `reader_run`: so does every run from a fresh installation.
-/

namespace MotiAI

open Dart Hive HiveQuoteService AffirmationService

/-! ## The reader -/

inductive ReaderEvent where
  | displayed (quote : Quote)
  | marked (quote : Quote)
  | saved (affirmation : String) (quote : Quote) (timestamp : ℤ) (createdAt : String)
  | deleted (id : String)
  | cleared
  | restarted

/-- The event is a press on the heart of the quote with this id. -/
def ReaderEvent.marks (id : String) : ReaderEvent → Bool
  | .marked quote => quote.id = id
  | _ => false

/-- What was seen and saved so far, what is seen now, and what is kept. -/
structure Reader where
  seen : Set Quote := ∅
  saves : Set Affirmation := ∅
  current : Option Quote := none
  favorites : Set String := ∅
  notes : String → Option Affirmation := fun _ => none

namespace Reader

/-- What is marked or noted is the quote that is seen. -/
def Permitted (t : Reader) : ReaderEvent → Prop
  | .marked quote => t.current = some quote
  | .saved _ quote _ _ => t.current = some quote
  | _ => True

def replay (t : Reader) : ReaderEvent → Reader
  | .displayed quote => { t with seen := insert quote t.seen, current := some quote }
  | .marked quote => { t with favorites := symmDiff t.favorites {quote.id} }
  | .saved affirmation quote timestamp createdAt =>
    { t with
      saves := insert (affirmationData affirmation quote timestamp createdAt) t.saves
      notes := Function.update t.notes (affirmationId timestamp)
        (some (affirmationData affirmation quote timestamp createdAt)) }
  | .deleted id => { t with notes := Function.update t.notes id none }
  | .cleared => { t with notes := fun _ => none }
  | .restarted => { t with current := none }

/-- An affirmation that was saved for a quote of `seen`. -/
def SavedFor (seen : Set Quote) (a : Affirmation) : Prop :=
  ∃ affirmation timestamp createdAt, ∃ quote ∈ seen,
    a = affirmationData affirmation quote timestamp createdAt

/-- Whatever is kept belongs to a quote that was seen. -/
structure Kept (t : Reader) : Prop where
  current : ∀ quote, t.current = some quote → quote ∈ t.seen
  favorites : ∀ id ∈ t.favorites, ∃ quote ∈ t.seen, quote.id = id
  saves : ∀ a ∈ t.saves, SavedFor t.seen a
  notes : ∀ id a, t.notes id = some a → a ∈ t.saves

theorem kept_empty : Kept {} where
  current := fun _ h => by cases h
  favorites := fun _ h => absurd h (Set.notMem_empty _)
  saves := fun _ h => absurd h (Set.notMem_empty _)
  notes := fun _ _ h => by cases h

theorem Kept.replay {t : Reader} {e : ReaderEvent} (h : Kept t) (he : Permitted t e) :
    Kept (t.replay e) := by
  cases e with
  | displayed quote =>
    refine ⟨?_, fun id hid => ?_, fun a ha => ?_, h.notes⟩
    · rintro _ ⟨⟩
      exact Set.mem_insert quote t.seen
    · obtain ⟨q, hq, hqid⟩ := h.favorites id hid
      exact ⟨q, Set.mem_insert_of_mem quote hq, hqid⟩
    · obtain ⟨affirmation, timestamp, createdAt, q, hq, rfl⟩ := h.saves a ha
      exact ⟨affirmation, timestamp, createdAt, q, Set.mem_insert_of_mem quote hq, rfl⟩
  | marked quote =>
    refine ⟨h.current, fun id hid => ?_, h.saves, h.notes⟩
    rcases Set.mem_symmDiff.mp hid with ⟨hid, -⟩ | ⟨hid, -⟩
    · exact h.favorites id hid
    · obtain rfl := Set.mem_singleton_iff.mp hid
      exact ⟨quote, h.current quote he, rfl⟩
  | saved affirmation quote timestamp createdAt =>
    refine ⟨h.current, h.favorites, fun a ha => ?_, fun id a ha => ?_⟩
    · rcases Set.mem_insert_iff.mp ha with rfl | ha
      · exact ⟨affirmation, timestamp, createdAt, quote, h.current quote he, rfl⟩
      · exact h.saves a ha
    · replace ha : Function.update t.notes (affirmationId timestamp) (some (affirmationData
          affirmation quote timestamp createdAt)) id = some a := ha
      rw [Function.update_apply] at ha
      split at ha
      · obtain rfl := Option.some.inj ha
        exact Set.mem_insert _ t.saves
      · exact Set.mem_insert_of_mem _ (h.notes id a ha)
  | deleted id =>
    refine ⟨h.current, h.favorites, h.saves, fun id' a ha => ?_⟩
    replace ha : Function.update t.notes id none id' = some a := ha
    rw [Function.update_apply] at ha
    split at ha
    · cases ha
    · exact h.notes id' a ha
  | cleared =>
    refine ⟨h.current, h.favorites, h.saves, ?_⟩
    rintro _ _ ⟨⟩
  | restarted =>
    refine ⟨?_, h.favorites, h.saves, h.notes⟩
    rintro _ ⟨⟩

theorem favorites_replay (t : Reader) (e : ReaderEvent) (id : String) :
    id ∈ (t.replay e).favorites ↔ (id ∈ t.favorites ↔ e.marks id = false) := by
  cases e with
  | marked quote =>
    show id ∈ symmDiff t.favorites {quote.id} ↔ (_ ↔ decide (quote.id = id) = false)
    rw [Set.mem_symmDiff, Set.mem_singleton_iff, decide_eq_false_iff_not]
    by_cases hid : quote.id = id
    · simp [hid]
    · simp [hid, Ne.symm hid]
  | _ => exact (iff_true_right rfl).symm

/-- **A favorite** was marked an odd number of times. -/
theorem mem_favorites_foldl (es : List ReaderEvent) (t : Reader) (id : String) :
    id ∈ (es.foldl replay t).favorites ↔
      (id ∈ t.favorites ↔ Even (es.countP (ReaderEvent.marks id))) := by
  induction es generalizing t with
  | nil => exact (iff_true_right ⟨0, rfl⟩).symm
  | cons e es ih =>
    rw [List.foldl_cons, ih, favorites_replay, List.countP_cons]
    cases e.marks id with
    | false => simp
    | true =>
      rw [if_pos rfl, Nat.even_add_one]
      tauto

theorem mem_seen_foldl (es : List ReaderEvent) (t : Reader) (quote : Quote) :
    quote ∈ (es.foldl replay t).seen ↔ quote ∈ t.seen ∨ .displayed quote ∈ es := by
  induction es generalizing t with
  | nil => simp
  | cons e es ih =>
    rw [List.foldl_cons, ih, List.mem_cons]
    cases e with
    | displayed quote' =>
      show quote ∈ insert quote' t.seen ∨ _ ↔ _
      rw [Set.mem_insert_iff, ReaderEvent.displayed.injEq]
      tauto
    | _ => simp [replay]

theorem mem_saves_foldl (es : List ReaderEvent) (t : Reader) (a : Affirmation) :
    a ∈ (es.foldl replay t).saves ↔ a ∈ t.saves ∨ ∃ affirmation quote timestamp createdAt,
      .saved affirmation quote timestamp createdAt ∈ es ∧
        a = affirmationData affirmation quote timestamp createdAt := by
  induction es generalizing t with
  | nil => simp
  | cons e es ih =>
    rw [List.foldl_cons, ih]
    simp only [List.mem_cons]
    cases e with
    | saved affirmation' quote' timestamp' createdAt' =>
      show a ∈ insert (affirmationData affirmation' quote' timestamp' createdAt') t.saves ∨ _ ↔ _
      rw [Set.mem_insert_iff]
      constructor
      · rintro ((rfl | ha) | ⟨affirmation, quote, timestamp, createdAt, he, rfl⟩)
        · exact Or.inr ⟨affirmation', quote', timestamp', createdAt', Or.inl rfl, rfl⟩
        · exact Or.inl ha
        · exact Or.inr ⟨affirmation, quote, timestamp, createdAt, Or.inr he, rfl⟩
      · rintro (ha | ⟨affirmation, quote, timestamp, createdAt, he | he, rfl⟩)
        · exact Or.inl (Or.inr ha)
        · obtain ⟨rfl, rfl, rfl, rfl⟩ := ReaderEvent.saved.inj he
          exact Or.inl (Or.inl rfl)
        · exact Or.inr ⟨affirmation, quote, timestamp, createdAt, he, rfl⟩
    | _ => simp [replay]

/-- A note was saved for a quote that was seen before. -/
theorem seen_of_saved : ∀ {es : List ReaderEvent} {t : Reader}, Kept t →
    Simulation.Permitted Permitted replay t es →
    ∀ {affirmation quote timestamp createdAt}, .saved affirmation quote timestamp createdAt ∈ es →
      quote ∈ (es.foldl replay t).seen
  | e :: es, t, h, ⟨he, hes⟩, affirmation, quote, timestamp, createdAt, hmem => by
    rcases List.mem_cons.mp hmem with rfl | hmem
    · rw [mem_seen_foldl]
      exact Or.inl (h.current quote he)
    · exact seen_of_saved (h.replay he) hes hmem

end Reader

/-! ## The application -/

namespace MotiAIApp

/-- What the reader notices of a move. -/
def event (s : MotiAIApp) : AppMove → Option ReaderEvent
  | .display i _ _ =>
    match s.world.requests[i]? with
    | some ⟨_, .picked quote⟩ => some (.displayed quote)
    | _ => none
  | .toggleFavorite => s.screen.currentQuote.map .marked
  | .saveAffirmation i timestamp createdAt =>
    match s.desk[i]?, s.screen.currentQuote with
    | some ⟨_, .shown affirmation⟩, some quote =>
      some (.saved affirmation quote timestamp createdAt)
    | _, _ => none
  | .deleteAffirmation id => some (.deleted id)
  | .clearAllAffirmations => some .cleared
  | .restart _ _ => some .restarted
  | _ => none

/-- The affirmation was saved for the quote with this id. -/
def Wrote (saves : Set Affirmation) (quoteId affirmation : String) : Prop :=
  ∃ a ∈ saves, a.originalQuoteId = quoteId ∧ a.text = affirmation

theorem Wrote.mono {saves saves' : Set Affirmation} (hsub : saves ⊆ saves')
    {quoteId affirmation : String} (h : Wrote saves quoteId affirmation) :
    Wrote saves' quoteId affirmation := by
  obtain ⟨a, ha, hid, htext⟩ := h
  exact ⟨a, hsub ha, hid, htext⟩

/-- The screen and the boxes hold what the reader has seen and keeps. -/
structure Refines (s : MotiAIApp) (t : Reader) : Prop where
  current : s.screen.currentQuote = t.current
  favorites : favoriteSet s.favorites = t.favorites
  notes : ∀ id : String, (s.affirmations[id]?).map StoredMap.data = t.notes id
  saving : ∀ a ∈ s.desk, ∀ affirmation quote, a.stage = .saving affirmation quote →
    Wrote t.saves quote.id affirmation
  quotes : AffirmedBy (Wrote t.saves) s.quotes

section

variable {s s' : MotiAIApp} {t : Reader}

theorem Refines.congr (h : Refines s t) (hcurrent : s'.screen.currentQuote = s.screen.currentQuote)
    (hfavorites : s'.favorites = s.favorites) (haffirmations : s'.affirmations = s.affirmations)
    (hdesk : s'.desk = s.desk) (hquotes : AffirmedBy (Wrote t.saves) s'.quotes) : Refines s' t := by
  refine ⟨hcurrent.trans h.current, ?_, ?_, ?_, hquotes⟩
  · rw [hfavorites]
    exact h.favorites
  · rw [haffirmations]
    exact h.notes
  · rw [hdesk]
    exact h.saving

/-- An affirmation goes on, but is not saved. -/
theorem Refines.setStage (h : Refines s t) {i : ℕ} {sent : Quote} {stage : AffirmationStage}
    (hstage : ∀ affirmation quote, stage ≠ .saving affirmation quote) :
    Refines { s with desk := s.desk.set i ⟨sent, stage⟩ } t := by
  refine ⟨h.current, h.favorites, h.notes, fun a ha affirmation quote hsaving => ?_, h.quotes⟩
  rcases List.mem_or_eq_of_mem_set ha with ha | rfl
  · exact h.saving a ha affirmation quote hsaving
  · exact absurd hsaving (hstage affirmation quote)

/-- **A save** puts the note, and remembers what is to be written to the quote. -/
theorem Refines.save (h : Refines s t) {i : ℕ} {sent quote : Quote} {affirmation createdAt : String}
    {timestamp : ℤ} :
    Refines { s with
      desk := s.desk.set i ⟨sent, .saving affirmation quote⟩
      affirmations := s.affirmations.insert (affirmationId timestamp)
        ⟨true, affirmationData affirmation quote timestamp createdAt⟩ }
      (t.replay (.saved affirmation quote timestamp createdAt)) := by
  have hsub : t.saves ⊆ insert (affirmationData affirmation quote timestamp createdAt) t.saves :=
    Set.subset_insert _ _
  refine ⟨h.current, h.favorites, fun id => ?_, fun a ha affirmation' quote' hsaving => ?_,
    h.quotes.mono fun _ _ hwrote => hwrote.mono hsub⟩
  · show Option.map _ (s.affirmations.insert _ _)[id]? = Function.update t.notes _ _ id
    rw [Box.getElem?_put, Function.update_apply]
    by_cases hid : affirmationId timestamp = id
    · rw [if_pos hid, if_pos hid.symm]
      rfl
    · rw [if_neg hid, if_neg (Ne.symm hid)]
      exact h.notes id
  · rcases List.mem_or_eq_of_mem_set ha with ha | rfl
    · exact (h.saving a ha affirmation' quote' hsaving).mono hsub
    · obtain ⟨rfl, rfl⟩ := AffirmationStage.saving.inj hsaving
      exact ⟨_, Set.mem_insert _ _, rfl, rfl⟩

/-- What was saved is written to the quote. -/
theorem Refines.saved (h : Refines s t) {i : ℕ} {sent quote : Quote} {affirmation : String}
    (hi : s.desk[i]? = some ⟨sent, .saving affirmation quote⟩) :
    Refines { s with
      desk := s.desk.set i ⟨sent, .closed⟩
      quotes := (saveAffirmationToQuote quote.id affirmation s.quotes).getD s.quotes } t := by
  have hwrote := h.saving _ (List.mem_of_getElem? hi) affirmation quote rfl
  have hdesk : Refines { s with desk := s.desk.set i ⟨sent, .closed⟩ } t := h.setStage (by simp)
  exact hdesk.congr rfl rfl rfl rfl (h.quotes.saveAffirmation hwrote)

/-- The map that comes back from a restart has lost its type only. -/
theorem Refines.reopen (h : Refines s t) (id : String) :
    ((AffirmationService.reopen ⟨s.affirmations, s.quotes⟩).affirmations[id]?).map
      StoredMap.data = t.notes id := by
  show ((s.affirmations.map fun _ stored => { stored with typed := false })[id]?).map
    StoredMap.data = t.notes id
  rw [Std.ExtTreeMap.getElem?_map, Option.map_map]
  exact h.notes id

variable [CaseMap]

theorem current_displayQuote {i : ℕ} {shuffle : Shuffle String} {millis : ℕ}
    (hs : s.displayQuote i shuffle millis = some s') :
    ∃ kind quote, s.world.requests[i]? = some ⟨kind, .picked quote⟩ ∧
      s'.screen.currentQuote = some quote := by
  obtain ⟨kind, quote, s₁, s₂, hi, h₁, h₂, rfl⟩ := displayQuote_cases hs
  refine ⟨kind, quote, hi, ?_⟩
  obtain ⟨world, hw, rfl⟩ := Option.map_eq_some_iff.mp h₁
  obtain ⟨kind', stage, stage', session, hi', hresume, rfl⟩ := World.step_resume hw
  obtain ⟨rfl, rfl⟩ := Request.mk.inj (Option.some.inj (hi.symm.trans hi'))
  have hshown : session.screen.currentQuote = some quote := by
    cases World.resumes_of_resume hresume with
    | display quote => cases kind <;> rfl
  obtain ⟨s₃, stage, hb, rfl⟩ := generateBackgroundImage_spec h₂
  unfold fetchNextAIQuote
  split <;> exact hb.currentQuote.trans hshown

/-- A request before its display leaves what the reader notices. -/
theorem Refines.resume (h : Refines s t) {i : ℕ} {r : Resume} (hs : s.resume i r = some s')
    (hr : r ≠ .display) : Refines s' t := by
  obtain ⟨hquotes, hfavorites, haffirmations, hdesk⟩ := keeps_resume hs
  refine h.congr ?_ hfavorites haffirmations hdesk (by rw [hquotes]; exact h.quotes)
  rw [(front_of_resume hs hr).screen]

omit [CaseMap] in
/-- A fetched quote is put without an affirmation. -/
theorem Refines.addQuote (h : Refines s t) {q : Quote} (hq : q.affirmation = none) :
    Refines { s with quotes := HiveQuoteService.addQuote q s.quotes } t := by
  refine h.congr rfl rfl rfl rfl (h.quotes.put fun affirmation heq => ?_)
  cases hq.symm.trans heq

theorem Refines.displayQuote (h : Refines s t) {i : ℕ} {shuffle : Shuffle String} {millis : ℕ}
    {quote : Quote} (hs : s.displayQuote i shuffle millis = some s')
    (hcurrent : s'.screen.currentQuote = some quote) :
    Refines s' (t.replay (.displayed quote)) := by
  obtain ⟨hquotes, hfavorites, haffirmations, hdesk⟩ := keeps_displayQuote hs
  refine ⟨hcurrent, ?_, ?_, ?_, ?_⟩
  · rw [hfavorites]
    exact h.favorites
  · rw [haffirmations]
    exact h.notes
  · rw [hdesk]
    exact h.saving
  · rw [hquotes]
    exact h.quotes

variable [NumText]

/-- **A move without an event** changes nothing that the reader notices. -/
theorem refines_silent (h : Refines s t) {m : AppMove} (hs : s.step m = some s')
    (he : s.event m = none) : Refines s' t := by
  cases hback : m.isBackstage with
  | true =>
    have hb := backstage_step hback hs
    refine h.congr hb.currentQuote hb.favorites hb.affirmations hb.desk ?_
    rw [hb.quotes]
    exact h.quotes
  | false =>
    cases m with
    | display i shuffle millis =>
      obtain ⟨kind, quote, hi, -⟩ := current_displayQuote hs
      simp only [event, hi] at he
      cases he
    | toggleFavorite =>
      obtain ⟨quote, hcurrent, -⟩ := Option.bind_eq_some_iff.mp hs
      simp only [event, hcurrent, Option.map_some] at he
      cases he
    | generateAffirmation =>
      cases deskEffect_of_step (by simp) hs with
      | nothing => exact h
      | asked =>
        refine ⟨h.current, h.favorites, h.notes, fun a ha affirmation quote hsaving => ?_, h.quotes⟩
        rcases List.mem_append.mp ha with ha | ha
        · exact h.saving a ha affirmation quote hsaving
        · obtain rfl := List.mem_singleton.mp ha
          cases hsaving
    | affirmationAnswer i reply =>
      have hanswer := deskEffect_of_step (by simp) hs
      generalize AffirmationService.generateAffirmation s.key reply = affirmation at hanswer
      cases hanswer with
      | shown => exact h.setStage (by simp)
      | failed => exact h.setStage (by simp)
    | saveAffirmation i timestamp createdAt =>
      cases deskEffect_of_step (by simp) hs with
      | save hi hcurrent =>
        simp only [event, hi, hcurrent] at he
        cases he
    | savedAffirmation i =>
      cases deskEffect_of_step (by simp) hs with
      | saved hi => exact h.saved hi
    | closeAffirmation i =>
      cases deskEffect_of_step (by simp) hs with
      | close => exact h.setStage (by simp)
    | deleteAffirmation id => cases he
    | clearAllAffirmations => cases he
    | restart key stabilityKey => cases he
    | newQuote =>
      obtain rfl := Option.some.inj hs
      exact h.congr rfl rfl rfl rfl h.quotes
    | start i => exact h.resume hs (by simp)
    | answer i turn =>
      obtain ⟨⟨result, s₁⟩, hfetch, hr⟩ := Option.bind_eq_some_iff.mp hs
      rcases fetch_cases hfetch with ⟨-, rfl⟩ | ⟨q, -, hq, rfl⟩
      · exact h.resume hr (by simp)
      · exact (h.addQuote hq.2).resume hr (by simp)
    | read i shuffle => exact h.resume hs (by simp)
    | fetched turn =>
      simp only [step] at hs
      split at hs
      · cases hs
      · obtain ⟨⟨result, s₁⟩, hfetch, rfl⟩ := Option.map_eq_some_iff.mp hs
        rcases fetch_cases hfetch with ⟨-, rfl⟩ | ⟨q, -, hq, rfl⟩
        · exact h.congr rfl rfl rfl rfl h.quotes
        · exact (h.addQuote hq.2).congr rfl rfl rfl rfl (h.addQuote hq.2).quotes
    | _ => cases hback

/-- **A move with an event** does what the reader expects of it. -/
theorem refines_visible (hstocked : Stocked s) (h : Refines s t) {m : AppMove} {e : ReaderEvent}
    (hs : s.step m = some s') (he : s.event m = some e) :
    t.Permitted e ∧ Refines s' (t.replay e) := by
  cases m with
  | display i shuffle millis =>
    obtain ⟨kind, quote, hi, hcurrent⟩ := current_displayQuote hs
    simp only [event, hi] at he
    obtain rfl := Option.some.inj he
    exact ⟨trivial, h.displayQuote hs hcurrent⟩
  | toggleFavorite =>
    obtain ⟨quote, hcurrent, htoggle⟩ := Option.bind_eq_some_iff.mp hs
    obtain ⟨favorites, hfavorites, rfl⟩ := Option.map_eq_some_iff.mp htoggle
    simp only [event, hcurrent, Option.map_some] at he
    obtain rfl := Option.some.inj he
    refine ⟨h.current.symm.trans hcurrent, h.current, ?_, h.notes, h.saving, h.quotes⟩
    show favoriteSet favorites = symmDiff t.favorites {quote.id}
    rw [favoriteSet_screenToggle hfavorites, h.favorites]
  | saveAffirmation i timestamp createdAt =>
    cases deskEffect_of_step (by simp) hs with
    | save hi hcurrent =>
      simp only [event, hi, hcurrent] at he
      obtain rfl := Option.some.inj he
      exact ⟨h.current.symm.trans hcurrent, h.save⟩
  | deleteAffirmation id =>
    obtain rfl := Option.some.inj he
    obtain rfl := Option.some.inj hs
    refine ⟨trivial, h.current, h.favorites, fun id' => ?_, h.saving, h.quotes⟩
    show Option.map _ (s.affirmations.erase id)[id']? = Function.update t.notes id none id'
    rw [Box.getElem?_delete, Function.update_apply]
    by_cases hid : id = id'
    · rw [if_pos hid, if_pos hid.symm]
      rfl
    · rw [if_neg hid, if_neg (Ne.symm hid)]
      exact h.notes id'
  | clearAllAffirmations =>
    obtain rfl := Option.some.inj he
    obtain rfl := Option.some.inj hs
    refine ⟨trivial, h.current, h.favorites, fun id => ?_, h.saving, h.quotes⟩
    show Option.map _ (∅ : Box StoredMap)[id]? = none
    rw [Std.ExtTreeMap.getElem?_empty]
    rfl
  | restart key stabilityKey =>
    obtain rfl := Option.some.inj he
    simp only [step] at hs
    obtain ⟨service, -, rfl⟩ := Option.map_eq_some_iff.mp hs
    refine ⟨trivial, rfl, h.favorites, h.reopen, fun a ha => absurd ha List.not_mem_nil, ?_⟩
    rw [hstocked.stock.initializeBoxes]
    exact h.quotes
  | _ => cases he

/-- **The application refines the reader.** -/
theorem forward : Simulation.Forward step event Reader.Permitted Reader.replay
    (fun s t => Stocked s ∧ Refines s t) where
  silent := fun _ _ _ _ ⟨hstocked, h⟩ hs he => ⟨hstocked.step hs, refines_silent h hs he⟩
  visible := fun _ _ _ _ _ ⟨hstocked, h⟩ hs he =>
    ⟨(refines_visible hstocked h hs he).1, hstocked.step hs, (refines_visible hstocked h hs he).2⟩

omit [CaseMap] [NumText] in
theorem refines_installed (key stabilityKey : EnvEntry) : Refines (installed key stabilityKey) {} where
  current := rfl
  favorites := by
    ext id
    rw [mem_favoriteSet]
    exact iff_of_false Box.getElem?_empty_ne (Set.notMem_empty id)
  notes := fun id => by
    show Option.map _ (∅ : Box StoredMap)[id]? = none
    rw [Std.ExtTreeMap.getElem?_empty]
    rfl
  saving := fun _ h => absurd h List.not_mem_nil
  quotes := by
    show AffirmedBy _ (initializeBoxes ∅)
    rw [initializeBoxes_empty]
    exact affirmedBy_loadInitialQuotes

omit [CaseMap] [NumText] in
/-- What is expected of the state that a run with these events ends in. -/
structure Recorded (events : List ReaderEvent) (s : MotiAIApp) : Prop where
  refines : Refines s (events.foldl Reader.replay {})
  favorites : ∀ id, isFavorite id s.favorites = true ↔
    Odd (events.countP (ReaderEvent.marks id))
  marked : ∀ id, isFavorite id s.favorites = true →
    ∃ quote, .displayed quote ∈ events ∧ quote.id = id
  notes : ∀ (id : String) (v : StoredMap), s.affirmations[id]? = some v →
    ∃ affirmation quote timestamp createdAt, .displayed quote ∈ events ∧
      .saved affirmation quote timestamp createdAt ∈ events ∧
      v.data = affirmationData affirmation quote timestamp createdAt
  quotes : AffirmedBy (fun id affirmation => ∃ quote timestamp createdAt,
    quote.id = id ∧ .displayed quote ∈ events ∧
      .saved affirmation quote timestamp createdAt ∈ events) s.quotes

omit [CaseMap] [NumText] in
/-- What the reader keeps follows from the events alone. -/
theorem Refines.recorded {events : List ReaderEvent}
    (hpermitted : Simulation.Permitted Reader.Permitted Reader.replay {} events)
    (h : Refines s (events.foldl Reader.replay {})) : Recorded events s := by
  have hkept : Reader.Kept (events.foldl Reader.replay {}) :=
    Simulation.invariant_foldl (fun _ _ ht he => ht.replay he) Reader.kept_empty hpermitted
  have hseen : ∀ quote, quote ∈ (events.foldl Reader.replay {}).seen →
      .displayed quote ∈ events := by
    intro quote hquote
    exact ((Reader.mem_seen_foldl events {} quote).mp hquote).resolve_left (Set.notMem_empty quote)
  have hsaves : ∀ a ∈ (events.foldl Reader.replay {}).saves, ∃ affirmation quote timestamp createdAt,
      .displayed quote ∈ events ∧ .saved affirmation quote timestamp createdAt ∈ events ∧
        a = affirmationData affirmation quote timestamp createdAt := by
    intro a ha
    obtain ⟨affirmation, quote, timestamp, createdAt, he, rfl⟩ :=
      ((Reader.mem_saves_foldl events {} a).mp ha).resolve_left (Set.notMem_empty a)
    exact ⟨affirmation, quote, timestamp, createdAt,
      hseen quote (Reader.seen_of_saved Reader.kept_empty hpermitted he), he, rfl⟩
  have hmem : ∀ id, isFavorite id s.favorites = true ↔
      id ∈ (events.foldl Reader.replay {}).favorites := by
    intro id
    rw [← h.favorites]
    exact Iff.rfl
  refine ⟨h, fun id => ?_, fun id hid => ?_, fun id v hv => ?_, h.quotes.mono ?_⟩
  · rw [hmem, Reader.mem_favorites_foldl, ← Nat.not_even_iff_odd]
    exact iff_false_left (Set.notMem_empty id)
  · obtain ⟨quote, hquote, hqid⟩ := hkept.favorites id ((hmem id).mp hid)
    exact ⟨quote, hseen quote hquote, hqid⟩
  · refine hsaves v.data (hkept.notes id v.data ?_)
    rw [← h.notes id, hv]
    rfl
  · rintro id affirmation ⟨a, ha, hid, htext⟩
    obtain ⟨affirmation', quote, timestamp, createdAt, hdisplayed, hsaved, rfl⟩ := hsaves a ha
    obtain rfl : affirmation' = affirmation := htext
    exact ⟨quote, timestamp, createdAt, hid, hdisplayed, hsaved⟩

/-- **What the reader keeps.** Every run from a fresh installation ends in what the reader expects
from its events: a favorite is a quote that was marked an odd number of times, and was displayed; and
a note, or the affirmation of a stored quote, was saved for that quote after it was displayed. -/
theorem reader_run (key stabilityKey : EnvEntry) (moves : List AppMove)
    (hs : Run.final step (installed key stabilityKey) moves = some s) :
    Recorded (Simulation.trace step event (installed key stabilityKey) moves) s := by
  obtain ⟨hpermitted, -, hrefines⟩ := forward.final
    ⟨stocked_installed key stabilityKey, refines_installed key stabilityKey⟩ hs
  exact hrefines.recorded hpermitted

end

/-- The first quote is displayed and marked. -/
def firstMark : List AppMove := firstQuote ++ [.display 0 .keep 0, .toggleFavorite]

theorem reader_run_firstMark :
    ∃ s, Run.final (@step CaseMap.ascii NumText.literal) (installed .missing .missing) firstMark =
        some s ∧
      Recorded (Simulation.trace (@step CaseMap.ascii NumText.literal) event
        (installed .missing .missing) firstMark) s := by
  have hfinal : (Run.final (@step CaseMap.ascii NumText.literal) (installed .missing .missing)
      firstMark).isSome = true := by decide +kernel
  obtain ⟨s, hs⟩ := Option.isSome_iff_exists.mp hfinal
  exact ⟨s, hs, @reader_run s CaseMap.ascii NumText.literal .missing .missing firstMark hs⟩

end MotiAIApp

end MotiAI
