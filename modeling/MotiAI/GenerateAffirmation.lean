import MotiAI.AuthorChoice

/-!
# Generating an affirmation

`generateAffirmation`, from the key to the cleaned text. It reads an answer as
`fetchQuoteFromAnthropic` does, but knows no famous quotes and writes nothing.

1. `affirmed_generateAffirmation`: an affirmation is not empty, trimmed and without double quotes.
2. `fetch_eq_affirmation`: for the same key and reply, the fetch returns a quote exactly when the
   affirmation is no famous quote, and then the quote has its text.
-/

namespace MotiAI

open Dart Hive Throwing

namespace AffirmationService

section

variable [NumText]

/-- The affirmation of an answer; the outer `none` says that something throws. -/
def acceptAffirmation (body : String) : Option (Option String) := do
  let data ← jsonDecode body
  match ← HiveQuoteService.answerText data with
  | none => return none
  | some text =>
    if text = "" then return none
    else if cleanText text = "" then return none
    else return some (cleanText text)

/-- Whatever throws after the key was found is caught, and leads to null. -/
def generateAffirmation (key : EnvEntry) (reply : Reply String) : Option String :=
  if HiveQuoteService.hasKey key then
    match reply with
    | .response 200 body => (acceptAffirmation body).getD none
    | _ => none
  else none

end

/-- What an affirmation is. -/
structure Affirmed (affirmation : String) : Prop where
  nonempty : affirmation ≠ ""
  trimmed : trim affirmation = affirmation
  unquoted : '"' ∉ affirmation.toList

section

variable [NumText] {key : EnvEntry} {reply : Reply String} {affirmation body : String}

theorem exists_text_of_acceptAffirmation (h : acceptAffirmation body = some (some affirmation)) :
    ∃ data text, jsonDecode body = some data ∧
      HiveQuoteService.answerText data = some (some text) ∧ text ≠ "" ∧
        cleanText text ≠ "" ∧ affirmation = cleanText text := by
  unfold acceptAffirmation at h
  obtain ⟨data, hdata, h⟩ := Option.bind_eq_some_iff.mp h
  obtain ⟨text?, htext, h⟩ := Option.bind_eq_some_iff.mp h
  cases text? with
  | none => cases h
  | some text =>
    dsimp only at h
    split at h
    · cases h
    rename_i hne
    split at h
    · cases h
    rename_i hclean
    exact ⟨data, text, hdata, htext, hne, hclean, (Option.some.inj (Option.some.inj h)).symm⟩

theorem generateAffirmation_eq_some (h : generateAffirmation key reply = some affirmation) :
    HiveQuoteService.hasKey key = true ∧ ∃ body, reply = .response 200 body ∧
      acceptAffirmation body = some (some affirmation) := by
  unfold generateAffirmation at h
  split at h
  · rename_i hkey
    split at h
    · rename_i body
      refine ⟨hkey, body, rfl, ?_⟩
      cases haccept : acceptAffirmation body with
      | none =>
        rw [haccept] at h
        cases h
      | some affirmation? =>
        rw [haccept] at h
        exact congrArg some h
    · cases h
  · cases h

/-- **An affirmation** has been cleaned, and there is something left of it. -/
theorem affirmed_generateAffirmation (h : generateAffirmation key reply = some affirmation) :
    Affirmed affirmation := by
  obtain ⟨-, body, -, haccept⟩ := generateAffirmation_eq_some h
  obtain ⟨data, text, -, -, -, hclean, rfl⟩ := exists_text_of_acceptAffirmation haccept
  exact ⟨hclean, trim_clean text, quote_notMem_clean text⟩

end

end AffirmationService

/-! ## Against the fetch of a quote -/

namespace HiveQuoteService

theorem exists_pickAt {list : List String} (hne : list ≠ []) (millis : ℤ) :
    ∃ x ∈ list, pickAt list millis = some x := by
  have hpos : 0 < (list.length : ℤ) := by exact_mod_cast List.length_pos_iff.mpr hne
  have hnonneg := Int.emod_nonneg millis hpos.ne'
  have hlt := Int.emod_lt_of_pos millis hpos
  have hindex : (millis % list.length).toNat < list.length := by omega
  exact ⟨list[(millis % list.length).toNat], List.getElem_mem hindex,
    List.getElem?_eq_getElem hindex⟩

/-- The clock always picks a tradition and one of its authors. -/
theorem exists_buildQuote (cleanText : String) (turn : FetchTurn) :
    ∃ q, buildQuote cleanText turn = some q ∧ q.text = cleanText := by
  obtain ⟨tradition, hmem, htradition⟩ :=
    exists_pickAt (by decide : authenticTraditions ≠ []) turn.traditionMillis
  obtain ⟨authors, hauthors⟩ := exists_authors hmem
  obtain ⟨author, -, hauthor⟩ := exists_pickAt (authors_ne_nil hmem hauthors) turn.authorMillis
  unfold buildQuote
  simp only [htradition, hauthors, hauthor, Option.getD_some, Option.bind_eq_bind,
    Option.bind_some]
  exact ⟨_, rfl, rfl⟩

section

variable [CaseMap] [NumText]

/-- What is accepted as a quote is accepted as an affirmation that is no famous quote. -/
theorem acceptAnswer_eq (body : String) (turn : FetchTurn) :
    (acceptAnswer body turn).map (Option.map Quote.text) =
      (AffirmationService.acceptAffirmation body).map
        (Option.filter fun affirmation => !isFamousQuote affirmation) := by
  unfold acceptAnswer AffirmationService.acceptAffirmation
  cases jsonDecode body with
  | none => rfl
  | some data =>
    cases htext : answerText data with
    | none => simp [htext]
    | some text? =>
      cases text? with
      | none => simp [htext]
      | some text =>
        obtain ⟨q, hq, hqtext⟩ := exists_buildQuote (cleanText text) turn
        have hsame : AffirmationService.cleanText text = cleanText text := rfl
        simp only [htext, hsame, hq, Option.bind_eq_bind, Option.bind_some]
        by_cases hempty : text = ""
        · simp [hempty]
        · by_cases hclean : cleanText text = ""
          · simp [hempty, hclean]
          · cases hfamous : isFamousQuote (cleanText text) <;>
              simp [hempty, hclean, hfamous, hqtext, Option.filter_some]

/-- **A quote is fetched exactly when its text would be an affirmation that is no famous quote**,
for the same key and reply, and the put does not throw. -/
theorem fetch_eq_affirmation (turn : FetchTurn) (b : Box Val) :
    ∃ result b', (fetchQuoteFromAnthropic turn).run b = .ok result b' ∧
      result.map Quote.text = if turn.putThrows then none else
        (AffirmationService.generateAffirmation turn.key turn.reply).filter
          fun affirmation => !isFamousQuote affirmation := by
  unfold fetchQuoteFromAnthropic AffirmationService.generateAffirmation
  cases hasKey turn.key with
  | false => exact ⟨none, b, rfl, (ite_self none).symm⟩
  | true =>
    simp only [if_true]
    unfold requestQuote
    cases turn.reply with
    | throws => exact ⟨none, b, rfl, (ite_self none).symm⟩
    | response statusCode body =>
      dsimp only
      by_cases hstatus : statusCode = 200
      · subst hstatus
        have haccept := acceptAnswer_eq body turn
        rw [if_pos rfl]
        show ∃ result b', _ ∧ _ = if turn.putThrows then none else
          ((AffirmationService.acceptAffirmation body).getD none).filter _
        cases hfetched : acceptAnswer body turn with
        | none =>
          rw [hfetched] at haccept
          rw [Option.map_eq_none_iff.mp haccept.symm]
          exact ⟨none, b, rfl, (ite_self none).symm⟩
        | some fetched =>
          rw [hfetched] at haccept
          obtain ⟨affirmation?, haffirmation, heq⟩ := Option.map_eq_some_iff.mp haccept.symm
          rw [haffirmation]
          cases fetched with
          | none =>
            refine ⟨none, b, rfl, ?_⟩
            have hnone : Option.filter _ affirmation? = none := heq
            rw [Option.getD_some, hnone, ite_self]
            rfl
          | some q =>
            unfold tryAddQuote
            cases turn.putThrows with
            | true => exact ⟨none, b, rfl, rfl⟩
            | false => exact ⟨some q, addQuote q b, rfl, heq.symm⟩
      · rw [if_neg hstatus]
        refine ⟨none, b, rfl, ?_⟩
        split
        · rfl
        · split
          · rename_i heq
            exact absurd (Reply.response.inj heq).1 hstatus
          · rfl

end

end HiveQuoteService

end MotiAI
