import MotiAI.FetchQuote
import MotiAI.Lib.Residue

/-!
# The author of an AI quote

The clock picks the tradition of a fetched quote, then, read once more, one of the authors of that
tradition. Both times the residue of the milliseconds modulo the length of a list picks, so within
one millisecond the author depends on the tradition.

`sameMillis_iff`: the pairs of a tradition and an author that one millisecond can give.
`every_author_iff`: the traditions all of whose authors are among them.
`exists_short_delay`: every pair comes up when the second read may be a little later.
-/

namespace MotiAI

open Dart Hive Throwing

namespace HiveQuoteService

/-! ## The lists -/

section Lists

variable {tradition : String} {authors : List String}

theorem nodup_authenticTraditions : authenticTraditions.Nodup := by decide +kernel

/-- `authorTraditionMap` has authors for every tradition. -/
theorem exists_authors (htradition : tradition ∈ authenticTraditions) :
    ∃ authors, authorTraditionMap.lookup tradition = some authors := by
  have hall : (authenticTraditions.all fun tradition =>
      (authorTraditionMap.lookup tradition).isSome) = true := by
    decide +kernel
  exact Option.isSome_iff_exists.mp (List.all_eq_true.mp hall tradition htradition)

/-- A check of the nine lists of authors. -/
theorem authors_check {p : List String → Bool}
    (hall : (authenticTraditions.all fun tradition =>
      (authorTraditionMap.lookup tradition).all p) = true)
    (htradition : tradition ∈ authenticTraditions)
    (hlookup : authorTraditionMap.lookup tradition = some authors) : p authors = true := by
  have hp := List.all_eq_true.mp hall tradition htradition
  rwa [hlookup] at hp

theorem nodup_authors (htradition : tradition ∈ authenticTraditions)
    (hlookup : authorTraditionMap.lookup tradition = some authors) : authors.Nodup :=
  of_decide_eq_true (authors_check (p := fun authors => decide authors.Nodup) (by decide +kernel)
    htradition hlookup)

theorem authors_ne_nil (htradition : tradition ∈ authenticTraditions)
    (hlookup : authorTraditionMap.lookup tradition = some authors) : authors ≠ [] :=
  of_decide_eq_true (authors_check (p := fun authors => decide (authors ≠ [])) (by decide +kernel)
    htradition hlookup)

theorem gcd_length_le (htradition : tradition ∈ authenticTraditions)
    (hlookup : authorTraditionMap.lookup tradition = some authors) :
    Nat.gcd authenticTraditions.length authors.length ≤ 3 :=
  of_decide_eq_true (authors_check
    (p := fun authors => decide (Nat.gcd authenticTraditions.length authors.length ≤ 3))
    (by decide +kernel) htradition hlookup)

end Lists

theorem pickAt_natCast (list : List String) (millis : ℕ) :
    pickAt list millis = Residue.pick list millis := by
  unfold pickAt Residue.pick
  rw [← Int.natCast_mod, Int.toNat_natCast]

/-! ## What a call picks -/

section

variable [CaseMap] [NumText] {m m' : ℕ} {tradition author : String} {authors : List String}

/-- A call returns a quote of this tradition and author; the clock shows `m` when the tradition is
picked and `m'` when the author is. -/
def FetchedAt (m m' : ℕ) (tradition author : String) : Prop :=
  ∃ (turn : FetchTurn) (b b' : Box Val) (q : Quote),
    turn.traditionMillis = m ∧ turn.authorMillis = m' ∧
      (fetchQuoteFromAnthropic turn).run b = .ok (some q) b' ∧
        q.tradition = tradition ∧ q.author = author

/-- A short answer that is accepted whatever the clock shows. -/
theorem acceptAnswer_zen (turn : FetchTurn) :
    acceptAnswer (answerBody "zen") turn = (buildQuote "zen" turn).map some := by
  have hlower : toLowerCase "zen" = "zen" := by
    rw [toLowerCase_of_ascii (lt_of_isAscii (by decide +kernel))]
    decide +kernel
  refine acceptAnswer_answerBody (by decide +kernel) (by decide) (by decide) (by decide) ?_
  exact isFamousQuote_of_short (by rw [hlower]; decide) (by rw [hlower]; decide)

/-- That answer, with the clock at the two reads. -/
def zenAt (m m' : ℕ) : FetchTurn where
  key := .value "sk"
  reply := .response 200 (answerBody "zen")
  traditionMillis := m
  authorMillis := m'
  idMillis := m'
  putThrows := false

theorem fetchedAt_of_pick (htradition : Residue.pick authenticTraditions m = some tradition)
    (hlookup : authorTraditionMap.lookup tradition = some authors)
    (hauthor : Residue.pick authors m' = some author) : FetchedAt m m' tradition author := by
  have hbuild : buildQuote "zen" (zenAt m m') = some {
      id := "ai_" ++ toString (m' : ℤ)
      text := "zen"
      author := author
      tradition := tradition
      category := "Inspiration" } := by
    unfold buildQuote zenAt
    simp only [pickAt_natCast, htradition, hlookup, hauthor, Option.getD_some,
      Option.bind_eq_bind, Option.bind_some]
    rfl
  have haccept := acceptAnswer_zen (zenAt m m')
  rw [hbuild] at haccept
  have hkey : hasKey (.value "sk") = true := by decide +kernel
  have hrun := fetchQuoteFromAnthropic_of_accept hkey rfl rfl haccept ∅
  exact ⟨zenAt m m', ∅, _, _, rfl, rfl, hrun, rfl, rfl⟩

/-- The quote of a call has the tradition and the author that its two reads of the clock pick. -/
theorem fetchedAt_iff (m m' : ℕ) (tradition author : String) :
    FetchedAt m m' tradition author ↔ Residue.pick authenticTraditions m = some tradition ∧
      ∃ authors, authorTraditionMap.lookup tradition = some authors ∧
        Residue.pick authors m' = some author := by
  constructor
  · rintro ⟨turn, b, b', q, hm, hm', hrun, rfl, rfl⟩
    rcases fetchQuoteFromAnthropic_cases turn b with h | ⟨body, q', -, haccept, h⟩
    · exact absurd (hrun.symm.trans h) (by simp)
    obtain ⟨hq, -⟩ := EStateM.Result.ok.inj (hrun.symm.trans h)
    obtain rfl := Option.some.inj hq
    obtain ⟨text, -, -, hbuild⟩ := exists_text_of_accept haccept
    obtain ⟨-, -, htradition, hauthor⟩ := buildQuote_eq_some hbuild
    rw [hm, pickAt_natCast] at htradition
    -- every tradition is mapped, so the fallback `['Buddha']` is never used
    obtain ⟨authors, hlookup⟩ := exists_authors (Residue.mem_of_pick htradition)
    rw [hm', pickAt_natCast, hlookup] at hauthor
    exact ⟨htradition, authors, hlookup, hauthor⟩
  · rintro ⟨htradition, authors, hlookup, hauthor⟩
    exact fetchedAt_of_pick htradition hlookup hauthor

theorem mapped_of_fetchedAt (h : FetchedAt m m' tradition author) :
    ∃ authors, authorTraditionMap.lookup tradition = some authors ∧ author ∈ authors := by
  obtain ⟨-, authors, hlookup, hauthor⟩ := (fetchedAt_iff m m' tradition author).mp h
  exact ⟨authors, hlookup, Residue.mem_of_pick hauthor⟩

/-- Whatever the clock shows, a call can be answered; what it shows decides the pair. -/
theorem exists_fetchedAt (m m' : ℕ) : ∃ tradition author, FetchedAt m m' tradition author := by
  obtain ⟨tradition, htradition⟩ :=
    Residue.exists_pick (List.ne_nil_of_length_pos (by decide : 0 < authenticTraditions.length)) m
  have hmem := Residue.mem_of_pick htradition
  obtain ⟨authors, hlookup⟩ := exists_authors hmem
  obtain ⟨author, hauthor⟩ := Residue.exists_pick (authors_ne_nil hmem hlookup) m'
  exact ⟨tradition, author, fetchedAt_of_pick htradition hlookup hauthor⟩

theorem FetchedAt.unique {tradition' author' : String} (h : FetchedAt m m' tradition author)
    (h' : FetchedAt m m' tradition' author') : tradition' = tradition ∧ author' = author := by
  obtain ⟨htradition, authors, hlookup, hauthor⟩ := (fetchedAt_iff _ _ _ _).mp h
  obtain ⟨htradition', authors', hlookup', hauthor'⟩ := (fetchedAt_iff _ _ _ _).mp h'
  obtain rfl := Option.some.inj (htradition'.symm.trans htradition)
  obtain rfl := Option.some.inj (hlookup'.symm.trans hlookup)
  exact ⟨rfl, Option.some.inj (hauthor'.symm.trans hauthor)⟩

theorem fetchedAt_iff_pick (hlookup : authorTraditionMap.lookup tradition = some authors) :
    FetchedAt m m' tradition author ↔ Residue.pick authenticTraditions m = some tradition ∧
      Residue.pick authors m' = some author := by
  rw [fetchedAt_iff]
  refine and_congr_right fun _ => ⟨?_, fun hauthor => ⟨authors, hlookup, hauthor⟩⟩
  rintro ⟨authors', hlookup', hauthor⟩
  obtain rfl := Option.some.inj (hlookup'.symm.trans hlookup)
  exact hauthor

/-- The pairs that two reads of the clock at a delay can give. -/
theorem exists_fetchedAt_iff (htradition : tradition ∈ authenticTraditions)
    (hlookup : authorTraditionMap.lookup tradition = some authors) (hauthor : author ∈ authors)
    (d : ℕ) :
    (∃ m, FetchedAt m (m + d) tradition author) ↔
      authenticTraditions.idxOf tradition + d ≡ authors.idxOf author
        [MOD Nat.gcd authenticTraditions.length authors.length] := by
  simp only [fetchedAt_iff_pick hlookup]
  exact Residue.exists_pick_iff nodup_authenticTraditions (nodup_authors htradition hlookup)
    htradition hauthor d

/-- **One millisecond for both reads.** The author is always one of the tradition; a pair is the one
that some millisecond gives exactly when the positions of the tradition and of the author agree
modulo the greatest common divisor of the lengths of their lists. -/
theorem sameMillis_iff (htradition : tradition ∈ authenticTraditions)
    (hlookup : authorTraditionMap.lookup tradition = some authors) (hauthor : author ∈ authors) :
    (∀ m t a, FetchedAt m m t a →
      ∃ authors, authorTraditionMap.lookup t = some authors ∧ a ∈ authors) ∧
    ((∃ m, ∀ t a, FetchedAt m m t a ↔ t = tradition ∧ a = author) ↔
      authenticTraditions.idxOf tradition ≡ authors.idxOf author
        [MOD Nat.gcd authenticTraditions.length authors.length]) := by
  refine ⟨fun m t a h => mapped_of_fetchedAt h, ?_⟩
  rw [← Nat.add_zero (authenticTraditions.idxOf tradition),
    ← exists_fetchedAt_iff htradition hlookup hauthor 0]
  constructor
  · rintro ⟨m, hm⟩
    exact ⟨m, (hm tradition author).mpr ⟨rfl, rfl⟩⟩
  · rintro ⟨m, hm⟩
    refine ⟨m, fun t a => ⟨hm.unique, ?_⟩⟩
    rintro ⟨rfl, rfl⟩
    exact hm

/-- **All authors of a tradition** come up within one millisecond just when their number has no
factor in common with the number of traditions. -/
theorem every_author_iff (htradition : tradition ∈ authenticTraditions)
    (hlookup : authorTraditionMap.lookup tradition = some authors) :
    (∀ author ∈ authors, ∃ m, FetchedAt m m tradition author) ↔
      Nat.Coprime authenticTraditions.length authors.length := by
  simp only [fetchedAt_iff_pick hlookup]
  exact Residue.forall_exists_pick_iff nodup_authenticTraditions
    (nodup_authors htradition hlookup) htradition (authors_ne_nil htradition hlookup)

/-- **A short delay is enough.** Every author comes up with the tradition when the second read is up
to two milliseconds later. -/
theorem exists_short_delay (htradition : tradition ∈ authenticTraditions)
    (hlookup : authorTraditionMap.lookup tradition = some authors) (hauthor : author ∈ authors) :
    ∃ d ≤ 2, ∃ m, FetchedAt m (m + d) tradition author := by
  obtain ⟨d, hlt, hpick⟩ := Residue.exists_delay nodup_authenticTraditions
    (nodup_authors htradition hlookup) htradition hauthor
  have hle := gcd_length_le htradition hlookup
  simp only [fetchedAt_iff_pick hlookup]
  exact ⟨d, by omega, hpick⟩

end

/-- Positions 7 and 1, in lists of nine and three. -/
theorem sameMillis_bill_gates :
    ∃ m, ∀ t a, @FetchedAt CaseMap.ascii NumText.literal m m t a ↔
      t = "Mindful Tech" ∧ a = "Bill Gates" :=
  (@sameMillis_iff CaseMap.ascii NumText.literal "Mindful Tech" "Bill Gates"
    ["Steve Jobs", "Bill Gates", "Albert Einstein"] (by decide +kernel) (by decide +kernel)
    (by decide +kernel)).2.mpr (by decide +kernel)

/-- Positions 0 and 1, in lists of nine and fifteen. -/
theorem not_fetched_thich_nhat_hanh :
    "Buddhist" ∈ authenticTraditions ∧
      ∃ authors, authorTraditionMap.lookup "Buddhist" = some authors ∧
        "Thich Nhat Hanh" ∈ authors ∧
        ¬ ∃ m, @FetchedAt CaseMap.ascii NumText.literal m m "Buddhist" "Thich Nhat Hanh" := by
  have htradition : "Buddhist" ∈ authenticTraditions := by decide +kernel
  have hlookup : authorTraditionMap.lookup "Buddhist" =
      some ((authorTraditionMap.lookup "Buddhist").getD []) := by
    decide +kernel
  have hauthor : "Thich Nhat Hanh" ∈ (authorTraditionMap.lookup "Buddhist").getD [] := by
    decide +kernel
  refine ⟨htradition, _, hlookup, hauthor, fun h => ?_⟩
  have hmodEq := (@exists_fetchedAt_iff CaseMap.ascii NumText.literal _ _ _ htradition hlookup
    hauthor 0).mp h
  exact absurd hmodEq (by decide +kernel)

end HiveQuoteService

end MotiAI
