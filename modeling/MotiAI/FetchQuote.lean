import MotiAI.ApiKey
import MotiAI.Cleaning
import MotiAI.Dart.Dynamic
import MotiAI.Dart.JsonRoundTrip
import MotiAI.Lib.Throwing
import MotiAI.Store

/-!
# Fetching an AI quote

`fetchQuoteFromAnthropic`, from the key to the write to the quotes box. What can throw runs inside
one catch-all, so the call is a program with a state, the quotes box, and an exception that carries
nothing.

`fetchQuoteFromAnthropic_stores`: the call never throws; it leaves the box alone or adds the quote
it returns, and that quote is vetted.
-/

namespace MotiAI

open Dart Hive Throwing

namespace HiveQuoteService

def famousQuotes : List String :=
  ["the journey of a thousand miles begins with a single step",
    "be the change you wish to see in the world",
    "life is what happens when you are busy making other plans",
    "the only way to do great work is to love what you do", "everything you can imagine is real",
    "peace comes from within", "happiness is not something ready made", "the mind is everything",
    "wisdom begins in wonder", "know thyself", "the unexamined life is not worth living",
    "beauty is in the eye of the beholder", "actions speak louder than words",
    "practice makes perfect", "where there is a will there is a way"]

def authenticTraditions : List String :=
  ["Buddhist", "Sufi", "Taoism", "Confucianism", "Stoicism", "Hinduism", "Indigenous Wisdom",
    "Mindful Tech", "Social Justice"]

def authorTraditionMap : List (String × List String) :=
  [("Buddhist",
      ["Buddha", "Thich Nhat Hanh", "Dalai Lama", "Pema Chödrön", "Sharon Salzberg",
       "Tara Brach", "Sylvia Boorstein", "Joan Halifax", "Sister Chan Khong", "Dipa Ma",
       "Mae Chee Kaew", "Khandro Rinpoche", "Jetsunma Tenzin Palmo", "Thubten Chodron",
       "Ayya Khema"]),
    ("Sufi", ["Rumi", "Khalil Gibran"]),
    ("Taoism", ["Lao Tzu"]),
    ("Confucianism", ["Confucius"]),
    ("Stoicism",
      ["Socrates", "Plato", "Aristotle", "Marcus Aurelius", "Epictetus", "Seneca",
       "Simone de Beauvoir", "Hannah Arendt", "Virginia Woolf", "Mary Wollstonecraft",
       "Simone Weil"]),
    ("Hinduism",
      ["Krishna", "Ramana Maharshi", "Swami Vivekananda", "Osho", "Jiddu Krishnamurti",
       "Paramahansa Yogananda", "Sri Chinmoy"]),
    ("Indigenous Wisdom",
      ["Wangari Maathai", "Rigoberta Menchú", "Arundhati Roy", "Chimamanda Ngozi Adichie"]),
    ("Mindful Tech", ["Steve Jobs", "Bill Gates", "Albert Einstein"]),
    ("Social Justice",
      ["Maya Angelou", "Audre Lorde", "bell hooks", "Gloria Steinem", "Aung San Suu Kyi",
       "Malala Yousafzai", "Wangari Maathai", "Rigoberta Menchú", "Shirin Ebadi",
       "Arundhati Roy", "Chimamanda Ngozi Adichie", "Toni Morrison", "Alice Walker",
       "Zora Neale Hurston"])]

/-- What a call meets: the key, the answer, the clock each time it is read, and whether the put
throws. -/
structure FetchTurn where
  key : EnvEntry
  reply : Reply String
  traditionMillis : ℤ
  authorMillis : ℤ
  idMillis : ℤ
  putThrows : Bool

/-- `data['content']?[0]?['text']?.toString().trim()`; the outer `none` says that it throws. -/
def answerText [NumText] (data : Plain) : Option (Option String) := do
  let content ← Plain.atKey "content" data
  let first ← Plain.nullAware Plain.atZero content
  let text ← Plain.nullAware (Plain.atKey "text") first
  match text with
  | .null => return none
  | text => return some (trim (String.ofList (Plain.text text)))

def isFamousQuote [CaseMap] (cleanText : String) : Bool :=
  famousQuotes.any fun famous =>
    contains (toLowerCase cleanText) (toLowerCase famous) ||
      contains (toLowerCase famous) (toLowerCase cleanText)

/-- `list[millis % list.length]`. -/
def pickAt (list : List String) (millis : ℤ) : Option String :=
  list[(millis % list.length).toNat]?

def buildQuote (cleanText : String) (turn : FetchTurn) : Option Quote := do
  let randomTradition ← pickAt authenticTraditions turn.traditionMillis
  let availableAuthors := (authorTraditionMap.lookup randomTradition).getD ["Buddha"]
  let randomAuthor ← pickAt availableAuthors turn.authorMillis
  return {
    id := "ai_" ++ toString turn.idMillis
    text := cleanText
    author := randomAuthor
    tradition := randomTradition
    category := "Inspiration" }

section Fetch

variable [CaseMap] [NumText]

/-- The quote an answer leads to, if it is accepted; the outer `none` says that something throws. -/
def acceptAnswer (body : String) (turn : FetchTurn) : Option (Option Quote) := do
  let data ← jsonDecode body
  match ← answerText data with
  | none => return none
  | some text =>
    if text = "" then return none
    else if isFamousQuote (cleanText text) then return none
    else if cleanText text = "" then return none
    else (buildQuote (cleanText text) turn).map some

/-- `await instance.addQuote(aiQuote)`; a put that throws leaves the box as it is. -/
def tryAddQuote (aiQuote : Quote) (putThrows : Bool) : EStateM Unit (Box Val) Unit :=
  if putThrows then throw () else modify (addQuote aiQuote)

/-- The statements inside `try`. -/
def requestQuote (turn : FetchTurn) : EStateM Unit (Box Val) (Option Quote) :=
  match turn.reply with
  | .throws => throw ()
  | .response statusCode body =>
    if statusCode = 200 then do
      match ← orThrow (acceptAnswer body turn) with
      | none => return none
      | some aiQuote =>
        tryAddQuote aiQuote turn.putThrows
        return some aiQuote
    else return none

def fetchQuoteFromAnthropic (turn : FetchTurn) : EStateM Unit (Box Val) (Option Quote) :=
  if hasKey turn.key then tryCatch (requestQuote turn) fun _ => return none
  else return none

/-! ## What is accepted -/

/-- An AI quote with a text that is cleaned and no famous quote. -/
structure Vetted (q : Quote) : Prop where
  ai : startsWith q.id "ai_" = true
  nonempty : q.text ≠ ""
  trimmed : trim q.text = q.text
  unquoted : '"' ∉ q.text.toList
  original : ∀ famous ∈ famousQuotes, contains (toLowerCase q.text) famous = false ∧
    contains famous (toLowerCase q.text) = false

omit [CaseMap] [NumText] in
/-- The famous quotes are in lower case, and long texts without a z. -/
theorem exists_famous : ∃ ls : List (List Char), famousQuotes.map String.toList = ls ∧
    (ls.all fun l => isAscii l && l.map Char.toLower == l && !l.contains 'z' && 10 < l.length) =
      true := by
  unfold famousQuotes
  repeat refine toLists_cons rfl ?_
  refine ⟨[], rfl, ?_⟩
  decide +kernel

omit [CaseMap] [NumText] in
theorem famous_characters {famous : String} (h : famous ∈ famousQuotes) :
    isAscii famous.toList = true ∧ famous.toList.map Char.toLower = famous.toList ∧
      'z' ∉ famous.toList ∧ 10 < famous.toList.length := by
  obtain ⟨ls, hls, hall⟩ := exists_famous
  have hmem : famous.toList ∈ ls := by
    rw [← hls]
    exact List.mem_map_of_mem h
  simpa [and_assoc] using List.all_eq_true.mp hall famous.toList hmem

omit [NumText] in
theorem toLowerCase_famous {famous : String} (h : famous ∈ famousQuotes) :
    toLowerCase famous = famous := by
  obtain ⟨hascii, hlower, -, -⟩ := famous_characters h
  rw [toLowerCase_of_ascii (lt_of_isAscii hascii), hlower, String.ofList_toList]

omit [NumText] in
theorem isFamousQuote_eq_false {cleanText : String} (h : isFamousQuote cleanText = false) :
    ∀ famous ∈ famousQuotes, contains (toLowerCase cleanText) famous = false ∧
      contains famous (toLowerCase cleanText) = false := by
  intro famous hf
  have h' := List.any_eq_false.mp h famous hf
  rw [toLowerCase_famous hf, Bool.or_eq_true, not_or] at h'
  exact ⟨Bool.eq_false_iff.mpr h'.1, Bool.eq_false_iff.mpr h'.2⟩

omit [CaseMap] [NumText] in
/-- What a quote is built from: the text, and what the clock picks at each of its reads. -/
theorem buildQuote_eq_some {cleanText : String} {turn : FetchTurn} {q : Quote}
    (h : buildQuote cleanText turn = some q) :
    q.text = cleanText ∧ q.id = "ai_" ++ toString turn.idMillis ∧
      pickAt authenticTraditions turn.traditionMillis = some q.tradition ∧
      pickAt ((authorTraditionMap.lookup q.tradition).getD ["Buddha"]) turn.authorMillis =
        some q.author := by
  unfold buildQuote at h
  obtain ⟨tradition, htradition, h⟩ := Option.bind_eq_some_iff.mp h
  obtain ⟨author, hauthor, h⟩ := Option.bind_eq_some_iff.mp h
  obtain rfl := Option.some.inj h
  exact ⟨rfl, rfl, htradition, hauthor⟩

/-- An accepted answer has a text that passes the checks and that the quote is built with. -/
theorem exists_text_of_accept {body : String} {turn : FetchTurn} {q : Quote}
    (h : acceptAnswer body turn = some (some q)) :
    ∃ text, isFamousQuote (cleanText text) = false ∧ cleanText text ≠ "" ∧
      buildQuote (cleanText text) turn = some q := by
  unfold acceptAnswer at h
  obtain ⟨data, -, h⟩ := Option.bind_eq_some_iff.mp h
  obtain ⟨text?, -, h⟩ := Option.bind_eq_some_iff.mp h
  cases text? with
  | none => cases h
  | some text =>
    dsimp only at h
    split at h
    · cases h
    split at h
    · cases h
    rename_i hfamous
    split at h
    · cases h
    rename_i hne
    obtain ⟨q', hq, hq'⟩ := Option.map_eq_some_iff.mp h
    obtain rfl := Option.some.inj hq'
    exact ⟨text, Bool.eq_false_iff.mpr hfamous, hne, hq⟩

theorem acceptAnswer_eq_some {body : String} {turn : FetchTurn} {q : Quote}
    (h : acceptAnswer body turn = some (some q)) :
    Vetted q ∧ q.id = "ai_" ++ toString turn.idMillis := by
  obtain ⟨text, hfamous, hne, hq⟩ := exists_text_of_accept h
  obtain ⟨htext, hid, -, -⟩ := buildQuote_eq_some hq
  refine ⟨⟨?_, ?_, ?_, ?_, ?_⟩, hid⟩
  · rw [hid, startsWith_iff, String.toList_append]
    exact List.prefix_append _ _
  · rwa [htext]
  · rw [htext]
    exact trim_clean text
  · rw [htext]
    exact quote_notMem_clean text
  · rw [htext]
    exact isFamousQuote_eq_false hfamous

/-! ## What is stored -/

/-- A call ends without a quote and leaves the box as it was, or adds the quote it accepted. -/
theorem fetchQuoteFromAnthropic_cases (turn : FetchTurn) (b : Box Val) :
    (fetchQuoteFromAnthropic turn).run b = .ok none b ∨
      ∃ body q, turn.reply = .response 200 body ∧ acceptAnswer body turn = some (some q) ∧
        (fetchQuoteFromAnthropic turn).run b = .ok (some q) (addQuote q b) := by
  unfold fetchQuoteFromAnthropic
  split
  · -- inside `try`: the box is as before until the put
    unfold requestQuote
    cases turn.reply with
    | throws => exact Or.inl rfl
    | response statusCode body =>
      dsimp only
      split
      · rename_i hstatus
        cases haccept : acceptAnswer body turn with
        | none => exact Or.inl rfl
        | some accepted =>
          cases accepted with
          | none => exact Or.inl rfl
          | some q =>
            unfold tryAddQuote
            cases turn.putThrows with
            | true => exact Or.inl rfl
            | false => exact Or.inr ⟨body, q, by rw [hstatus], haccept, rfl⟩
      · exact Or.inl rfl
  · exact Or.inl rfl

/-- **Fetching an AI quote is all or nothing.** A call returns; without a quote the box is as
before, and with one it has gained that quote, which is vetted. -/
theorem fetchQuoteFromAnthropic_stores (turn : FetchTurn) (b : Box Val) :
    ∃ result b', (fetchQuoteFromAnthropic turn).run b = .ok result b' ∧
      (result = none → b' = b) ∧
      ∀ q, result = some q → b' = b.insert q.id (.object q) ∧ Vetted q := by
  rcases fetchQuoteFromAnthropic_cases turn b with h | ⟨body, q, -, hq, h⟩
  · exact ⟨none, b, h, fun _ => rfl, by simp⟩
  · refine ⟨some q, addQuote q b, h, by simp, fun q' hq' => ?_⟩
    obtain rfl := Option.some.inj hq'
    exact ⟨rfl, (acceptAnswer_eq_some hq).1⟩

/-- A call that is answered with an acceptable text adds it. -/
theorem fetchQuoteFromAnthropic_of_accept {turn : FetchTurn} {body : String} {q : Quote}
    (hkey : hasKey turn.key = true) (hreply : turn.reply = .response 200 body)
    (hput : turn.putThrows = false) (haccept : acceptAnswer body turn = some (some q))
    (b : Box Val) : (fetchQuoteFromAnthropic turn).run b = .ok (some q) (addQuote q b) := by
  unfold fetchQuoteFromAnthropic requestQuote
  rw [if_pos hkey, hreply]
  dsimp only
  rw [if_pos rfl, haccept]
  unfold tryAddQuote
  rw [hput]
  rfl

/-! ## An answer in the usual form -/

/-- `{"content": [{"text": text}]}`. -/
def answerBody (text : String) : String :=
  String.ofList (print (.map [("content", .list [.map [("text", .str text)]])]))

theorem acceptAnswer_answerBody {text : String} {turn : FetchTurn} (htrim : trim text = text)
    (hne : text ≠ "") (hquote : '"' ∉ text.toList) (hhyphen : '-' ∉ text.toList)
    (hfamous : isFamousQuote text = false) :
    acceptAnswer (answerBody text) turn = (buildQuote text turn).map some := by
  have hclean : cleanText text = text := by
    have hkeep := (clean_eq_trim_iff text).mpr
    rw [removeChar_of_notMem hquote, htrim] at hkeep
    exact hkeep (mt Ending.hyphen_mem hhyphen)
  have hdecode : jsonDecode (answerBody text) =
      some (.map [("content", .list [.map [("text", .str text)]])]) :=
    jsonDecode_print (by simp [Plain.Wf, Plain.WfEntries, Plain.WfElems])
  have htext : answerText (.map [("content", .list [.map [("text", .str text)]])]) =
      some (some text) := by
    simp [answerText, Plain.atKey, Plain.atZero, Plain.nullAware, Plain.text, Json.lookup, htrim]
  unfold acceptAnswer
  simp only [hdecode, htext, hclean, hfamous, Option.bind_eq_bind, Option.bind_some, if_neg hne,
    Bool.false_eq_true, if_false]

omit [NumText] in
/-- A short text with a z is no famous quote. -/
theorem isFamousQuote_of_short {text : String} (hz : 'z' ∈ (toLowerCase text).toList)
    (hlen : (toLowerCase text).toList.length ≤ 10) : isFamousQuote text = false := by
  refine List.any_eq_false.mpr fun famous hf => ?_
  obtain ⟨-, -, hno, hlt⟩ := famous_characters hf
  rw [toLowerCase_famous hf, contains_eq_false hz hno, Bool.or_false, contains_iff]
  intro h
  have := h.length_le
  omega

end Fetch

end HiveQuoteService

end MotiAI
