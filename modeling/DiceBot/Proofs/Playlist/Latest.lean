import DiceBot.Proofs.Playlist.Dates

/-!
# Which new videos are left out

Of more new videos than are announced at once only the last ones of the response are left, and
they are announced in the order of their publication as the last five. Those are the five published
last only if the response lists no later video in front of them, which nothing ensures.

## Main definitions

* `Video.instant`, `Finding.inOrder`: the order of publication
* `Json.news`: the videos of a response that were published after a given time
* `Finding.leftOut`: the new videos that are not kept

## Main results

* `mergeSort_append_of_le`, `isSuffix_mergeSort_append_iff`: sorting a list of two parts
* `Finding.keepsLatest_iff_isSuffix`: when the videos published last are announced
* `Finding.not_keepsLatest_newestFirst`: a response for which they are not
-/

namespace DiceBot

/-! ## Sorting a list of two parts -/

section Sorting

variable {α : Type} {le : α → α → Bool} {as bs : List α}
  (trans : ∀ x y z, le x y = true → le y z = true → le x z = true)
  (total : ∀ x y, (le x y || le y x) = true)

include trans total

/-- An item in front of a list is sorted in between what is below it and the rest. -/
theorem mergeSort_cons_eq (x : α) (as : List α) :
    (x :: as).mergeSort le =
      (as.mergeSort le).filter (fun y => !le x y) ++ x :: (as.mergeSort le).filter (le x) := by
  obtain ⟨below, above, hcons, hsort, hbelow⟩ := List.mergeSort_cons trans total x as
  have hsorted := List.pairwise_mergeSort trans total (x :: as)
  rw [hcons] at hsorted
  have habove : ∀ y ∈ above, le x y = true :=
    (List.pairwise_cons.mp (List.pairwise_append.mp hsorted).2.1).1
  have hbelow' : below.filter (le x) = [] :=
    List.filter_eq_nil_iff.mpr fun y hy => by simpa using hbelow y hy
  have habove' : above.filter (fun y => !le x y) = [] :=
    List.filter_eq_nil_iff.mpr fun y hy => by simp [habove y hy]
  rw [hcons, hsort, List.filter_append, List.filter_append, List.filter_eq_self.mpr hbelow,
    List.filter_eq_self.mpr habove, hbelow', habove', List.append_nil, List.nil_append]

/-- A part that is nowhere below another one stays behind it when both are sorted. -/
theorem mergeSort_append_of_le (h : ∀ x ∈ as, ∀ y ∈ bs, le x y = true) :
    (as ++ bs).mergeSort le = as.mergeSort le ++ bs.mergeSort le := by
  induction as with
  | nil => rw [List.nil_append, List.mergeSort_nil, List.nil_append]
  | cons x as ih =>
    obtain ⟨hx, has⟩ := List.forall_mem_cons.mp h
    have hx : ∀ y ∈ bs.mergeSort le, le x y = true :=
      fun y hy => hx y (List.mem_mergeSort.mp hy)
    have hnone : (bs.mergeSort le).filter (fun y => !le x y) = [] :=
      List.filter_eq_nil_iff.mpr fun y hy => by simp [hx y hy]
    rw [List.cons_append, mergeSort_cons_eq trans total, mergeSort_cons_eq trans total, ih has,
      List.filter_append, List.filter_append, hnone, List.filter_eq_self.mpr hx, List.append_nil,
      List.append_assoc, List.cons_append]

/-- A part of a list is sorted to the end exactly if it is nowhere below what stands in front. -/
theorem isSuffix_mergeSort_append_iff :
    bs.mergeSort le <:+ (as ++ bs).mergeSort le ↔ ∀ x ∈ as, ∀ y ∈ bs, le x y = true := by
  constructor
  · rintro ⟨front, hfront⟩ x hx y hy
    have hperm : (front ++ bs.mergeSort le).Perm (as ++ bs.mergeSort le) := by
      rw [hfront]
      exact (List.mergeSort_perm _ _).trans ((List.mergeSort_perm bs le).symm.append_left as)
    have hmem : x ∈ front := ((List.perm_append_right_iff _).mp hperm).mem_iff.mpr hx
    have hsorted := List.pairwise_mergeSort trans total (as ++ bs)
    rw [← hfront] at hsorted
    exact (List.pairwise_append.mp hsorted).2.2 x hmem y (List.mem_mergeSort.mpr hy)
  · intro h
    rw [mergeSort_append_of_le trans total h]
    exact List.suffix_append _ _

end Sorting

/-! ## The order of publication -/

/-- When a video was published, as an instant. -/
def Video.instant (v : Video) : Int :=
  (v.moment?.map Timestamp.instant).getD 0

namespace Video

theorem instant_of_moment? {v : Video} {t : Timestamp} (h : v.moment? = some t) :
    v.instant = t.instant := by
  rw [instant, h]
  rfl

theorem instant_le_trans (v u w : Video) (hvu : decide (v.instant ≤ u.instant) = true)
    (huw : decide (u.instant ≤ w.instant) = true) : decide (v.instant ≤ w.instant) = true := by
  rw [decide_eq_true_eq] at *
  exact Int.le_trans hvu huw

theorem instant_le_total (v u : Video) :
    (decide (v.instant ≤ u.instant) || decide (u.instant ≤ v.instant)) = true := by
  rw [Bool.or_eq_true, decide_eq_true_eq, decide_eq_true_eq]
  exact Int.le_total _ _

end Video

/-- The videos of a response that were published after a given time. -/
def Json.news (since : Timestamp) (body : Json) : List Video :=
  body.videos.filter (Video.isNew since)

namespace Finding

variable {since : Timestamp} {hasOffset : Bool} {videos : List Video} {f : Finding} {body : Json}

/-- Videos in the order of their publication; of several at one time the first comes first. -/
def inOrder (videos : List Video) : List Video :=
  videos.mergeSort fun v u => v.instant ≤ u.instant

/-- Videos with the times at which they were published. -/
theorem map_fst_of_moments {dated : List (Video × Timestamp)}
    (h : videos.mapM (fun v => do return (v, ← v.moment)) = .ok dated) :
    dated.map (·.1) = videos ∧ ∀ d ∈ dated, d.2.instant = d.1.instant := by
  have hdated := mapM_eq_ok_iff.mp h
  clear h
  induction hdated with
  | nil => exact ⟨rfl, nofun⟩
  | @cons v d _ _ hd _ ih =>
    obtain ⟨t, ht, hd⟩ := bind_eq_ok_iff.mp hd
    cases hd
    have hinstant := (Video.instant_of_moment? (Video.moment_eq_ok_iff.mp ht)).symm
    exact ⟨congrArg (v :: ·) ih.1, List.forall_mem_cons.mpr ⟨hinstant, ih.2⟩⟩

/-- Videos with comparable times are announced in the order of their publication. -/
theorem ordered_of_isDated (h : IsDated hasOffset f.videos) :
    f.ordered = .ok (inOrder f.videos) := by
  obtain ⟨shown, hshown⟩ := exists_ordered h
  obtain ⟨dated, hdated, hsorted⟩ := bind_eq_ok_iff.mp hshown
  obtain ⟨hvideos, hinstants⟩ := map_fst_of_moments hdated
  have hmap : (dated.mergeSort fun d e => d.2.instant ≤ e.2.instant).map (·.1) =
      inOrder f.videos := by
    rw [inOrder, ← hvideos]
    refine List.map_mergeSort fun d hd e he => ?_
    rw [hinstants d hd, hinstants e he]
  split at hsorted
  · rw [hshown, ← hmap]
    exact hsorted.symm
  · cases hsorted

/-! ## What is left out -/

/-- The videos in front of those that are announced. -/
def leftOut (videos : List Video) : List Video :=
  videos.take (videos.length - maxAnnounced)

theorem overflow_ofVideos (videos : List Video) :
    (ofVideos videos).overflow = true ↔ maxAnnounced < videos.length := by
  unfold ofVideos
  split
  · rename_i hmany
    exact iff_of_true rfl hmany
  · rename_i hfew
    exact iff_of_false nofun hfew

theorem leftOut_append_ofVideos (videos : List Video) :
    leftOut videos ++ (ofVideos videos).videos = videos := by
  unfold leftOut ofVideos
  split
  · exact List.take_append_drop _ _
  · rename_i hfew
    rw [Nat.sub_eq_zero_of_le (Nat.le_of_not_lt hfew), List.take_zero, List.nil_append]

theorem length_ofVideos (h : (ofVideos videos).overflow = true) :
    (ofVideos videos).videos.length = maxAnnounced := by
  have hmany := (overflow_ofVideos videos).mp h
  rw [ofVideos, if_pos hmany, List.length_drop]
  exact Nat.sub_sub_self hmany.le

/-- What is kept is the end of all videos in the order of their publication exactly if nothing that
is left out was published after it. -/
theorem isSuffix_inOrder_iff (videos : List Video) :
    inOrder (ofVideos videos).videos <:+ inOrder videos ↔
      ∀ v ∈ leftOut videos, ∀ u ∈ (ofVideos videos).videos, v.instant ≤ u.instant := by
  have hsuffix : inOrder (ofVideos videos).videos <:+
      inOrder (leftOut videos ++ (ofVideos videos).videos) ↔ _ :=
    isSuffix_mergeSort_append_iff Video.instant_le_trans Video.instant_le_total
  rw [leftOut_append_ofVideos] at hsuffix
  simpa only [decide_eq_true_eq] using hsuffix

/-- Of a response in the order of publication the videos published last are kept. -/
theorem le_of_pairwise (h : (body.news since).Pairwise fun v u => v.instant ≤ u.instant) :
    ∀ v ∈ leftOut (body.news since), ∀ u ∈ (ofVideos (body.news since)).videos,
      v.instant ≤ u.instant := by
  rw [← leftOut_append_ofVideos (body.news since)] at h
  exact (List.pairwise_append.mp h).2.2

/-- **What overflow leaves out.** Of a response whose times of publication can be compared, the last
five new videos in the order of the response are kept, and they are announced in the order of their
publication. No new video that is left out was published after a kept one exactly if what is
announced is the end of all new videos in the order of publication. -/
theorem keepsLatest_iff_isSuffix (hshape : body.IsWellShaped)
    (hcomparable : body.IsComparable since) :
    ∃ f, ofResponse since body = .ok f ∧
      (f.overflow = true ↔ maxAnnounced < (body.news since).length) ∧
      body.news since = leftOut (body.news since) ++ f.videos ∧
      (f.overflow = true → f.videos.length = maxAnnounced) ∧
      f.ordered = .ok (inOrder f.videos) ∧
      ((∀ v ∈ leftOut (body.news since), ∀ u ∈ f.videos, v.instant ≤ u.instant) ↔
        inOrder f.videos <:+ inOrder (body.news since)) := by
  have hfound := (ofResponse_of_isWellShaped since hshape).1 hcomparable
  refine ⟨ofVideos (body.news since), hfound, overflow_ofVideos _,
    (leftOut_append_ofVideos _).symm, length_ofVideos, ?_, (isSuffix_inOrder_iff _).symm⟩
  exact ordered_of_isDated (isDated_of_ofResponse hfound)

/-- Six times of publication, the latest first. -/
def newestFirst : List Text :=
  ["2023-03-06T00:00:00Z", "2023-03-05T00:00:00Z", "2023-03-04T00:00:00Z", "2023-03-03T00:00:00Z",
    "2023-03-02T00:00:00Z", "2023-03-01T00:00:00Z"]

theorem isComparable_newestFirst :
    (Json.ofDates newestFirst).IsComparable Watcher.firstMoment ∧
      (Json.ofDates newestFirst.reverse).IsComparable Watcher.firstMoment := by
  constructor
  · apply Json.isComparable_ofDates
    decide +kernel
  · apply Json.isComparable_ofDates
    decide +kernel

/-- With the latest video at the end of the response the five published last are announced. -/
theorem isSuffix_inOrder_oldestFirst :
    ∃ f, ofResponse Watcher.firstMoment (.ofDates newestFirst.reverse) = .ok f ∧
      f.overflow = true ∧ inOrder f.videos <:+
        inOrder ((Json.ofDates newestFirst.reverse).news Watcher.firstMoment) := by
  obtain ⟨f, hf, hoverflow, hnews, -, -, hlatest⟩ :=
    keepsLatest_iff_isSuffix (Json.isWellShaped_ofDates _) isComparable_newestFirst.2
  refine ⟨f, hf, hoverflow.mpr (by decide +kernel), hlatest.mp fun v hv u hu => ?_⟩
  have hu : u ∈ (Json.ofDates newestFirst.reverse).news Watcher.firstMoment := by
    rw [hnews]
    exact List.mem_append_right _ hu
  have hearly : ∀ v ∈ leftOut ((Json.ofDates newestFirst.reverse).news Watcher.firstMoment),
      ∀ u ∈ (Json.ofDates newestFirst.reverse).news Watcher.firstMoment,
        v.instant ≤ u.instant := by
    decide +kernel
  exact hearly v hv u hu

/-- With the latest video at the front of the response it is left out, and five videos that were
published before it are announced as the last. -/
theorem not_keepsLatest_newestFirst :
    Watcher.firstMoment.hasOffset = true ∧ (Json.ofDates newestFirst).IsWellShaped ∧
      (Json.ofDates newestFirst).IsComparable Watcher.firstMoment ∧
      ∃ f, ofResponse Watcher.firstMoment (.ofDates newestFirst) = .ok f ∧ f.overflow = true ∧
        ∃ v ∈ leftOut ((Json.ofDates newestFirst).news Watcher.firstMoment),
          ∃ u ∈ f.videos, u.instant < v.instant := by
  have hshape := Json.isWellShaped_ofDates newestFirst
  have hcomparable := isComparable_newestFirst.1
  have hfound := (ofResponse_of_isWellShaped _ hshape).1 hcomparable
  refine ⟨rfl, hshape, hcomparable, _, hfound, ?_, ?_⟩
  · decide +kernel
  · decide +kernel

end Finding

end DiceBot
