import MotiAI.Image.Overlap

/-!
# Cache expiry

A memory entry older than `_cacheExpiry` is dropped, but the file that was saved with it is not, and
what is read from a file is remembered as new.

1. `timely_of_unread`: while no call is answered from a file, every AI image returned was delivered
   less than `_cacheExpiry` earlier.
2. `not_timely_file`: a file is returned 25 hours after its delivery.
-/

namespace MotiAI

open Dart Hive

namespace ImageCalls

open Images StabilityAI

section

variable [CaseMap]

/-! ## What is expected -/

/-- An AI image that the move returns was delivered less than `_cacheExpiry` ago. -/
def Timely (_ : ImageCalls) (_ : ImageMove) (s' : ImageCalls) : Prop :=
  ∀ cacheKey image, s'.returned = some (cacheKey, image) → isAIImage image = true →
    ∃ time, (cacheKey, image, time) ∈ s'.deliveries ∧ s'.clock - time < cacheExpiry

/-- No call is answered from a file. -/
def Unread (s : ImageCalls) (m : ImageMove) (_ : ImageCalls) : Prop :=
  ∀ j readable prompt, m = .read j readable → s.calls[j]? = some ⟨prompt, .reading⟩ →
    s.images.getCachedImageFromStorage (generateCacheKey prompt) readable = none

/-- The AI images in memory were delivered at their timestamps. -/
def Dated (s : ImageCalls) : Prop :=
  ∀ (cacheKey image : String) (time : ℤ), s.images.imageCache[cacheKey]? = some image →
    isAIImage image = true → s.images.cacheTimestamps[cacheKey]? = some time →
    (cacheKey, image, time) ∈ s.deliveries

/-! ## One move -/

theorem deliveries_subset {s s' : ImageCalls} {m : ImageMove} (hs : s.step m = some s') :
    s.deliveries ⊆ s'.deliveries := by
  have hreceive : ∀ j prompt image reply,
      s.deliveries ⊆ (s.receive j prompt image reply).deliveries := by
    intro j prompt image reply
    unfold receive
    dsimp only
    split
    · exact List.subset_append_left _ _
    · exact List.Subset.refl _
  cases effect_of_step hs with
  | quiet hquiet =>
    rw [hquiet.deliveries]
    exact List.Subset.refl _
  | cached hmem hfresh => exact List.Subset.refl _
  | file hj hfile => exact List.Subset.refl _
  | @new j => exact hreceive j _ _ _
  | @refused j => exact hreceive j _ _ _
  | @prefetched j => exact hreceive j _ _ _

/-- An AI image that comes with a reply is recorded with the clock. -/
theorem mem_receive {s : ImageCalls} (j : ℕ) {prompt : String} {reply : Reply (Option Plain)}
    {millis : ℕ} (hAI : isAIImage (generateNewImage s.key prompt reply millis) = true) :
    (generateCacheKey prompt, generateNewImage s.key prompt reply millis, s.clock) ∈
      (s.receive j prompt (generateNewImage s.key prompt reply millis) reply).deliveries := by
  unfold receive
  dsimp only
  rw [if_pos (isAIImage_generateNewImage.mp hAI)]
  exact List.mem_append_right _ List.mem_cons_self

/-- What is written by a reply and is an AI image has been delivered. -/
theorem mem_deliveries_of_written {s s' : ImageCalls} {m : ImageMove} (hs : s.step m = some s')
    (hm : Unread s m s') {cacheKey image : String} (hw : Written s m cacheKey image)
    (hAI : isAIImage image = true) : (cacheKey, image, s.clock) ∈ s'.deliveries := by
  cases hw with
  | file hj hfile =>
    rw [hm _ _ _ rfl hj] at hfile
    cases hfile
  | @new j reply millis writable prompt hj =>
    simp only [step] at hs
    rw [hj] at hs
    obtain rfl := Option.some.inj hs
    exact mem_receive j hAI
  | @prefetched j reply millis writable prompt quoteId hj hphoto =>
    simp only [step] at hs
    rw [hj] at hs
    simp only [hphoto] at hs
    obtain rfl := Option.some.inj hs
    exact mem_receive j hAI

theorem dated_step {s s' : ImageCalls} {m : ImageMove} (hs : s.step m = some s') (hd : Dated s)
    (hm : Unread s m s') : Dated s' := by
  intro cacheKey image time h hAI htime
  rcases entry_step hs h with ⟨hold, hsame⟩ | ⟨hw, hclock⟩
  · exact deliveries_subset hs (hd cacheKey image time hold hAI (hsame.symm.trans htime))
  · obtain rfl := Option.some.inj (hclock.symm.trans htime)
    exact mem_deliveries_of_written hs hm hw hAI

theorem timely_step {s s' : ImageCalls} {m : ImageMove} (hs : s.step m = some s') (hd : Dated s)
    (hm : Unread s m s') : Timely s m s' := by
  intro cacheKey image hret hAI
  obtain ⟨hclock, ⟨hmem, hfresh⟩ | hw⟩ := returned_step hs hret
  · unfold isFresh at hfresh
    obtain ⟨time, htime, hlt⟩ := (Option.any_eq_true _ _).mp hfresh
    refine ⟨time, deliveries_subset hs (hd cacheKey image time hmem hAI htime), ?_⟩
    rw [hclock]
    exact of_decide_eq_true hlt
  · refine ⟨s.clock, mem_deliveries_of_written hs hm hw hAI, ?_⟩
    rw [hclock, Int.sub_self]
    decide

/-- **While no call is answered from a file**, every AI image returned was delivered less than
`_cacheExpiry` earlier. -/
theorem timely_of_unread (key : EnvEntry) (files : Box (List UInt8)) (cachedImages : Box Val)
    (moves : List ImageMove) (h : Run.Each step Unread (launched key files cachedImages) moves) :
    Run.Each step Timely (launched key files cachedImages) moves := by
  refine Run.each_of_invariant (I := Dated) (P := Unread) (Q := Timely)
    (fun s m s' hd hs hm => ⟨dated_step hs hd hm, timely_step hs hd hm⟩) moves _ ?_ h
  intro cacheKey image time hmem
  exact absurd hmem Box.getElem?_empty_ne

end

/-! ## A fresh and an outdated image -/

/-- A call is answered by the API, and the next one for the prompt a moment later. -/
def freshMoves : List ImageMove :=
  [.ask "zen", .read 0 true, .answer 0 (imageReply "QUJD") 0 true, .tick 1, .ask "zen"]

/-- The second call of `freshMoves` is answered from memory. -/
theorem timely_fresh :
    Run.Each (@step CaseMap.ascii) Timely (launched fullKey ∅ ∅) freshMoves := by
  refine @timely_of_unread CaseMap.ascii fullKey ∅ ∅ freshMoves ?_
  unfold freshMoves
  rw [Run.each_cons_of_step rfl, Run.each_cons_of_step rfl, Run.each_cons_of_step rfl,
    Run.each_cons_of_step rfl, Run.each_cons_of_step rfl]
  refine ⟨?_, ?_, ?_, ?_, ?_, trivial⟩
  · intro j readable prompt h
    cases h
  · intro j readable prompt h hj
    cases h
    cases hj
    rfl
  all_goals
    intro j readable prompt h
    cases h

/-- The same call 25 hours after the delivery. -/
def outdatedMoves : List ImageMove :=
  [.ask "zen", .read 0 true, .answer 0 (imageReply "QUJD") 0 true, .tick (25 * 60 * 60 * 1000000),
    .ask "zen", .read 1 true]

/-- The call returns the only delivery, of 25 hours ago. -/
theorem not_timely_file :
    (∃ s, Run.final (@step CaseMap.ascii) (launched fullKey ∅ ∅) outdatedMoves = some s ∧
      s.clock = 25 * 60 * 60 * 1000000 ∧
      s.returned = some ("zen", "data:image/png;base64,QUJD") ∧
      s.deliveries = [("zen", "data:image/png;base64,QUJD", 0)]) ∧
    ¬ Run.Each (@step CaseMap.ascii) Timely (launched fullKey ∅ ∅) outdatedMoves := by
  have hfinal : ∃ s, Run.final (@step CaseMap.ascii) (launched fullKey ∅ ∅) outdatedMoves = some s ∧
      s.clock = 25 * 60 * 60 * 1000000 ∧
      s.returned = some ("zen", "data:image/png;base64,QUJD") ∧
      s.deliveries = [("zen", "data:image/png;base64,QUJD", 0)] := by
    refine ⟨_, rfl, rfl, rfl, rfl⟩
  refine ⟨hfinal, fun hE => ?_⟩
  obtain ⟨s, hs, hclock, hret, hdel⟩ := hfinal
  have htimely : Timely s (.tick 0) s :=
    Run.Each.final (P := Timely s (.tick 0)) hE (fun _ _ h => by cases h) hs
  obtain ⟨time, hmem, hlt⟩ := htimely "zen" _ hret (isAIImage_data "QUJD")
  rw [hdel, List.mem_singleton] at hmem
  obtain rfl := (Prod.mk.inj (Prod.mk.inj hmem).2).2
  rw [hclock] at hlt
  exact absurd hlt (by decide)

end ImageCalls

end MotiAI
