import MotiAI.Image.Background
import MotiAI.Lib.Rotation
import MotiAI.Lib.Run

/-!
# The rotation of stored images

Quotes displayed one after the other, each background selected before the next, when the box holds an
image under all eight keys of their traditions. `since` says which keys of a tradition have been shown
since its last complete round of eight; the screen itself keeps one set of shown keys for all
traditions.

1. `shows_display`: the screen is a rotation in the sense of `Rotation`.
2. `rotates_of_unbroken`: as long as the shown keys are cleared only when no other tradition is within
   a round, no key is shown twice in a round.
3. `not_rotates_cleared`: the ninth quote of one tradition lets an image of another be shown again.
-/

namespace MotiAI

open Dart Hive HiveQuoteService Rotation

namespace Background

section

variable [CaseMap]

/-- The part of an image key that depends on the tradition. -/
def traditionKey (tradition : String) : String := replaceChar ' ' '_' (toLowerCase tradition)

/-- The eight keys of the traditions with a key. -/
def imageKeys (traditionKey : String) : Finset String :=
  Finset.univ.image fun i : Fin 8 =>
    "\\" ++ traditionKey ++ "_image_\\" ++ toString (i.val + 1)

/-- A quote is displayed; what the selection of its background meets. -/
structure Display where
  quote : Quote
  shuffle : Shuffle String
  millis : ℕ
  turn : ImageTurn

/-- The screen, and the keys shown of each tradition since its last complete round. -/
structure Slideshow where
  background : Background := {}
  since : String → Finset String := fun _ => ∅

/-- The key of the stored image that is shown. -/
def shownKey (a : Display) (d : Background) : Option String :=
  match beginBackground a.quote a.shuffle d with
  | (some key, d) =>
    match getStoredImage key d.cachedImages with
    | some (some _) => some key
    | _ => none
  | (none, _) => none

def Slideshow.step (w : Slideshow) (a : Display) : Option Slideshow :=
  some
    { background := generateBackgroundImage a.quote a.shuffle a.millis a.turn w.background
      since := match shownKey a w.background with
        | some key => nextSince imageKeys w.since (traditionKey a.quote.tradition) key
        | none => w.since }

/-- The box holds an image under each of the eight keys of the tradition. -/
def Stocked (b : Box Val) (tradition : String) : Prop :=
  ∀ key ∈ allImageKeys tradition, ∃ image, b[key]? = some (.str image)

/-- A stored image is shown whose key has not been shown in the present round of its tradition. -/
def Rotates (w : Slideshow) (a : Display) (_ : Slideshow) : Prop :=
  ∃ key, shownKey a w.background = some key ∧ key ∉ w.since (traditionKey a.quote.tradition)

/-- The shown keys are cleared only when no other tradition is within a round. -/
def Unbroken (w : Slideshow) (a : Display) (_ : Slideshow) : Prop :=
  Undisturbed imageKeys w.background.screen.shownImageKeys w.since
    (traditionKey a.quote.tradition)

/-! ## The keys -/

theorem mem_imageKeys {tradition key : String} :
    key ∈ imageKeys (traditionKey tradition) ↔ key ∈ allImageKeys tradition := by
  unfold imageKeys allImageKeys
  rw [Finset.mem_image, List.mem_map]
  constructor
  · rintro ⟨i, -, rfl⟩
    exact ⟨i, List.mem_finRange i, rfl⟩
  · rintro ⟨i, -, rfl⟩
    exact ⟨i, Finset.mem_univ i, rfl⟩

omit [CaseMap] in
theorem imageKeys_nonempty (traditionKey : String) : (imageKeys traditionKey).Nonempty :=
  ⟨_, Finset.mem_image_of_mem _ (Finset.mem_univ 0)⟩

omit [CaseMap] in
/-- A key belongs to one tradition only. -/
theorem imageKeys_disjoint (t t' key : String) (h : key ∈ imageKeys t) (h' : key ∈ imageKeys t') :
    t = t' := by
  obtain ⟨i, -, rfl⟩ := Finset.mem_image.mp h
  obtain ⟨j, -, heq⟩ := Finset.mem_image.mp h'
  obtain ⟨c, hc⟩ := toList_toString_index i
  obtain ⟨d, hd⟩ := toList_toString_index j
  have hl := congrArg String.toList heq
  simp only [String.toList_append, hc, hd] at hl
  have hinit := List.append_inj_left' hl rfl
  have ht := List.append_inj_left' hinit rfl
  exact (String.toList_inj.mp (List.append_cancel_left ht)).symm

/-! ## The screen as a rotation -/

/-- A selection takes an unused key, or clears the shown keys and takes any. -/
theorem shows_select (tradition : String) (shuffle : Shuffle String) (shown : Finset String) :
    ∃ key, (selectImageKey tradition shuffle shown).1 = some key ∧
      Shows imageKeys shown (traditionKey tradition) key
        (insert key (selectImageKey tradition shuffle shown).2) := by
  unfold selectImageKey
  dsimp only
  split
  · rename_i hunused
    obtain ⟨key, hmem, hkey⟩ := Shuffle.exists_first shuffle hunused
    obtain ⟨hall, hnew⟩ := List.mem_filter.mp hmem
    exact ⟨key, hkey, mem_imageKeys.mpr hall, Or.inl ⟨of_decide_eq_true hnew, rfl⟩⟩
  · rename_i hused
    have hne : allImageKeys tradition ≠ [] := List.cons_ne_nil _ _
    obtain ⟨key, hall, hkey⟩ := Shuffle.exists_first shuffle hne
    refine ⟨key, hkey, mem_imageKeys.mpr hall, Or.inr ⟨fun k hk => ?_, rfl⟩⟩
    by_contra hnew
    have hmem : k ∈ (allImageKeys tradition).filter fun k => k ∉ shown :=
      List.mem_filter.mpr ⟨mem_imageKeys.mp hk, decide_eq_true hnew⟩
    rw [not_not.mp hused] at hmem
    exact absurd hmem List.not_mem_nil

/-- **The screen is a rotation**: a stored image is shown, and its key is taken. -/
theorem shows_display {a : Display} {d : Background} (h : Stocked d.cachedImages a.quote.tradition) :
    ∃ key image, shownKey a d = some key ∧
      (generateBackgroundImage a.quote a.shuffle a.millis a.turn d).cachedImages =
        d.cachedImages.insert a.quote.id (.str image) ∧
      Shows imageKeys d.screen.shownImageKeys (traditionKey a.quote.tradition) key
        (generateBackgroundImage a.quote a.shuffle a.millis a.turn d).screen.shownImageKeys := by
  obtain ⟨key, hkey, hshows⟩ := shows_select a.quote.tradition a.shuffle d.screen.shownImageKeys
  obtain ⟨image, himage⟩ := h key (mem_imageKeys.mp hshows.mem)
  have hbegin := @beginBackground_of_select _ a.quote a.shuffle d key hkey
  have hstored : getStoredImage key (beginBackground a.quote a.shuffle d).2.cachedImages =
      some (some image) := by
    unfold getStoredImage
    rw [show (beginBackground a.quote a.shuffle d).2.cachedImages = d.cachedImages from rfl, himage]
  have hgenerate : generateBackgroundImage a.quote a.shuffle a.millis a.turn d =
      showStored a.quote key image (beginBackground a.quote a.shuffle d).2 := by
    unfold generateBackgroundImage
    rw [hbegin]
    dsimp only
    rw [hstored]
  refine ⟨key, image, ?_, ?_, ?_⟩
  · unfold shownKey
    rw [hbegin]
    dsimp only
    rw [hstored]
  · rw [hgenerate]
    rfl
  · rw [hgenerate]
    exact hshows

/-! ## Runs -/

/-- The images stay in the box, whatever is stored for a quote. -/
theorem Stocked.put {b : Box Val} {tradition : String} (h : Stocked b tradition)
    (quoteId image : String) : Stocked (b.insert quoteId (.str image)) tradition := by
  intro key hkey
  rw [Box.getElem?_put]
  split
  · exact ⟨image, rfl⟩
  · exact h key hkey

/-- The screen is within its rounds, and the box stocked for some traditions. -/
structure Slideshow.Turning (traditions : List String) (w : Slideshow) : Prop where
  inv : Inv imageKeys w.background.screen.shownImageKeys w.since
  stocked : ∀ tradition ∈ traditions, Stocked w.background.cachedImages tradition

theorem Slideshow.Turning.step {traditions : List String} {w w' : Slideshow} {a : Display}
    (hw : w.Turning traditions) (ha : a.quote.tradition ∈ traditions) (hok : Unbroken w a w')
    (h : w.step a = some w') : w'.Turning traditions ∧ Rotates w a w' := by
  obtain ⟨key, image, hshown, hbox, hshows⟩ := shows_display (hw.stocked _ ha)
  obtain ⟨hfresh, hinv⟩ := hshows.fresh imageKeys_disjoint hw.inv hok
  obtain rfl := Option.some.inj h
  refine ⟨⟨?_, fun tradition ht => ?_⟩, key, hshown, hfresh⟩
  · show Inv imageKeys _ (match shownKey a w.background with
      | some key => nextSince imageKeys w.since (traditionKey a.quote.tradition) key
      | none => w.since)
    rw [hshown]
    exact hinv
  · show Stocked
      (generateBackgroundImage a.quote a.shuffle a.millis a.turn w.background).cachedImages _
    rw [hbox]
    exact (hw.stocked tradition ht).put _ _

/-- The screen at the start, with these images in the box. -/
def Slideshow.start (b : Box Val) : Slideshow := { background := { cachedImages := b } }

/-- **No image is shown twice in a round**, as long as the shown keys are cleared only when no other
tradition is within a round. -/
theorem rotates_of_unbroken (as : List Display) (b : Box Val)
    (hstocked : ∀ a ∈ as, Stocked b a.quote.tradition)
    (h : Run.Each Slideshow.step Unbroken (Slideshow.start b) as) :
    Run.Each Slideshow.step Rotates (Slideshow.start b) as := by
  have hmem : Run.Each Slideshow.step
      (fun _ a _ => a.quote.tradition ∈ as.map fun a => a.quote.tradition)
      (Slideshow.start b) as :=
    Run.each_of_forall_mem fun a ha _ _ => List.mem_map_of_mem ha
  have hstart : (Slideshow.start b).Turning (as.map fun a => a.quote.tradition) := by
    constructor
    · exact inv_empty imageKeys_nonempty
    · intro tradition ht
      obtain ⟨a, ha, rfl⟩ := List.mem_map.mp ht
      exact hstocked a ha
  refine Run.each_of_invariant (fun w a w' hw hstep hok => ?_) as _ hstart (h.and hmem)
  exact hw.step hok.2 hok.1 hstep

/-- No other tradition is within a round. -/
def Slideshow.Only (tradition : String) (w : Slideshow) : Prop :=
  ∀ g, g ≠ traditionKey tradition → w.since g = ∅

theorem Slideshow.Only.step {tradition : String} {w w' : Slideshow} {a : Display}
    (hw : w.Only tradition) (ha : a.quote.tradition = tradition) (h : w.step a = some w') :
    w'.Only tradition := by
  subst ha
  intro g hg
  obtain rfl := Option.some.inj h
  dsimp only
  cases shownKey a w.background with
  | some key =>
    show nextSince imageKeys w.since (traditionKey a.quote.tradition) key g = ∅
    rw [nextSince_of_ne hg, hw g hg]
  | none => exact hw g hg

/-- While one tradition is displayed, no other is within a round. -/
theorem unbroken_of_one {tradition : String} (as : List Display) (b : Box Val)
    (h : ∀ a ∈ as, a.quote.tradition = tradition) :
    Run.Each Slideshow.step Unbroken (Slideshow.start b) as := by
  have hlabels : Run.Each Slideshow.step (fun _ a _ => a.quote.tradition = tradition)
      (Slideshow.start b) as := Run.each_of_forall_mem fun a ha _ _ => h a ha
  have hstart : (Slideshow.start b).Only tradition := fun _ _ => rfl
  refine Run.each_of_invariant (fun w a w' hw hstep ha => ⟨hw.step ha hstep, ?_⟩) as _ hstart
    hlabels
  subst ha
  exact fun _ g hg => hw g hg

/-- An image under every key of some traditions. -/
def storedImages (traditions : List String) : List (String × Val) :=
  traditions.flatMap fun tradition =>
    (allImageKeys tradition).map fun key => (key, .str "data:image/png;base64,AAAA")

theorem stocked_storedImages {traditions : List String} {tradition : String}
    (h : tradition ∈ traditions) : Stocked (Box.putAll (storedImages traditions) ∅) tradition := by
  have hsame : ∀ e ∈ storedImages traditions, e.2 = .str "data:image/png;base64,AAAA" := by
    intro e he
    obtain ⟨t, -, ht⟩ := List.mem_flatMap.mp he
    obtain ⟨k, -, rfl⟩ := List.mem_map.mp ht
    rfl
  intro key hkey
  have hmem : (key, .str "data:image/png;base64,AAAA") ∈ storedImages traditions :=
    List.mem_flatMap.mpr ⟨tradition, h, List.mem_map_of_mem hkey⟩
  obtain ⟨l, l', hl⟩ := List.append_of_mem hmem
  refine ⟨"data:image/png;base64,AAAA", ?_⟩
  rw [hl, Box.putAll_append, Box.putAll_cons]
  refine Box.getElem?_putAll_of_forall (fun e he _ => hsame e ?_) (Box.getElem?_put_self _ _ _)
  rw [hl]
  exact List.mem_append_right l (List.mem_cons_of_mem _ he)

end

/-! ## Zen and Sufi -/

/-- A quote of the tradition is displayed, and the shuffle leaves the order as it is. -/
def display (tradition : String) : Display :=
  ⟨⟨"q", "", "", tradition, "Wisdom", "", none⟩, .keep, 0, ⟨0, 0, true, true, .null⟩⟩

/-- Zen alone keeps its rounds. -/
theorem rotates_zen :
    Run.Each (@Slideshow.step CaseMap.ascii) (@Rotates CaseMap.ascii)
      (Slideshow.start (Box.putAll (@storedImages CaseMap.ascii ["Zen"]) ∅))
      (List.replicate 20 (display "Zen")) := by
  have hzen : ∀ a ∈ List.replicate 20 (display "Zen"), a.quote.tradition = "Zen" := by
    intro a ha
    rw [List.eq_of_mem_replicate ha]
    rfl
  refine @rotates_of_unbroken CaseMap.ascii _ _ (fun a ha => ?_)
    (@unbroken_of_one CaseMap.ascii "Zen" _ _ hzen)
  rw [hzen a ha]
  exact @stocked_storedImages CaseMap.ascii _ _ List.mem_cons_self

/-- The ninth quote of the Sufi tradition clears the shown keys, and the first image of Zen is shown
again before the other seven. -/
theorem not_rotates_cleared :
    (∀ tradition ∈ ["Zen", "Sufi"],
      @Stocked CaseMap.ascii (Box.putAll (@storedImages CaseMap.ascii ["Zen", "Sufi"]) ∅) tradition) ∧
    ¬ Run.Each (@Slideshow.step CaseMap.ascii) (@Rotates CaseMap.ascii)
      (Slideshow.start (Box.putAll (@storedImages CaseMap.ascii ["Zen", "Sufi"]) ∅))
      (display "Zen" :: List.replicate 9 (display "Sufi") ++ [display "Zen"]) := by
  refine ⟨fun _ ht => @stocked_storedImages CaseMap.ascii _ _ ht, fun h => ?_⟩
  have hrun : ((Run.final (@Slideshow.step CaseMap.ascii)
      (Slideshow.start (Box.putAll (@storedImages CaseMap.ascii ["Zen", "Sufi"]) ∅))
      (display "Zen" :: List.replicate 9 (display "Sufi"))).any fun w =>
        decide (@shownKey CaseMap.ascii (display "Zen") w.background =
          some (@imageKey CaseMap.ascii "Zen" 0)) &&
        decide (@imageKey CaseMap.ascii "Zen" 0 ∈
          w.since (@traditionKey CaseMap.ascii "Zen"))) = true := by
    decide +kernel
  obtain ⟨w, hw, hagain⟩ := (Option.any_eq_true _ _).mp hrun
  rw [Bool.and_eq_true, decide_eq_true_eq, decide_eq_true_eq] at hagain
  obtain ⟨key, hkey, hfresh⟩ := (((Run.each_append hw).mp h).2 _ rfl).1
  obtain rfl := Option.some.inj (hagain.1.symm.trans hkey)
  exact hfresh hagain.2

end Background

end MotiAI
