import Mathlib.Data.List.Nodup
import DiceBot.Proofs.Playlist.Latest

/-!
# Announcements in the order of publication

New videos are announced by the instants at which they were published, whatever offsets the times
are written with, and the search goes on from the first of those published last. Both look at the
order of the response only where videos were published at one instant, so a response in another
order is announced in the same words unless there are such videos.

## Main definitions

* `Finding.Arranges`: a list of videos in the order of publication
* `Finding.heading`: what stands above the list
* `Finding.IsLatest`: the first of the videos published last

## Main results

* `filter_mergeSort`: a stable sort keeps the order of what is equal
* `Finding.announcement_of_isDated`: the announcement of videos with comparable times
* `Finding.exists_isLatest`: the time from which the next search starts
* `Finding.announcement_arranges`: announcements and the next search in any order of the response
-/

namespace DiceBot

/-- A stable sort keeps the order of items none of which belongs in front of another. -/
theorem filter_mergeSort {α : Type} {le : α → α → Bool} {p : α → Bool} {as : List α}
    (trans : ∀ x y z, le x y = true → le y z = true → le x z = true)
    (total : ∀ x y, (le x y || le y x) = true)
    (h : ∀ x y, p x = true → p y = true → le x y = true) :
    (as.mergeSort le).filter p = as.filter p := by
  have hequal : (as.filter p).Pairwise fun x y => le x y = true :=
    List.pairwise_of_forall_mem_list fun x hx y hy =>
      h x y (List.mem_filter.mp hx).2 (List.mem_filter.mp hy).2
  have hsublist : (as.filter p).Sublist (as.mergeSort le) :=
    List.sublist_mergeSort trans total hequal List.filter_sublist
  have hfilter := hsublist.filter p
  simp only [List.filter_filter, Bool.and_self] at hfilter
  exact (hfilter.eq_of_length ((List.mergeSort_perm as le).symm.filter p).length_eq).symm

namespace Finding

variable {since : Timestamp} {hasOffset : Bool} {videos shown : List Video} {f g : Finding}
  {body : Json}

/-! ## The order of an announcement -/

/-- A list of videos in the order of publication: it holds each of the given videos once, and those
that were published at one instant in the order in which they are given. -/
structure Arranges (shown videos : List Video) : Prop where
  perm : shown.Perm videos
  pairwise : shown.Pairwise fun v u => v.instant ≤ u.instant
  stable : ∀ instant, (shown.filter fun v => v.instant = instant) =
    videos.filter fun v => v.instant = instant

theorem arranges_inOrder (videos : List Video) : Arranges (inOrder videos) videos where
  perm := List.mergeSort_perm _ _
  pairwise := by
    have hsorted := List.pairwise_mergeSort Video.instant_le_trans Video.instant_le_total videos
    exact hsorted.imp of_decide_eq_true
  stable instant := by
    refine filter_mergeSort Video.instant_le_trans Video.instant_le_total fun v u hv hu => ?_
    rw [decide_eq_true_eq] at *
    exact Int.le_of_eq (hv.trans hu.symm)

/-- Videos published at different instants have one order of publication. -/
theorem Arranges.unique {shown' videos' : List Video} (h : Arranges shown videos)
    (h' : Arranges shown' videos') (hperm : videos.Perm videos')
    (hnodup : (videos.map Video.instant).Nodup) : shown = shown' := by
  have hshown : shown.Perm shown' := h.perm.trans (hperm.trans h'.perm.symm)
  refine List.Perm.eq_of_pairwise (fun v u hv hu hvu huv => ?_) h.pairwise h'.pairwise hshown
  exact List.inj_on_of_nodup_map hnodup (h.perm.subset hv)
    (h.perm.subset (hshown.symm.subset hu)) (Int.le_antisymm hvu huv)

/-! ## The text of an announcement -/

/-- What stands above the list of videos, or in its place if there are none. -/
def heading (f : Finding) (since : Timestamp) (playlist : Json) : Text :=
  if f.videos.isEmpty then
    "No videos added to " ++ playlist.shown ++ " since " ++ since.reading
  else if f.overflow then
    "More than five videos have been added to " ++ playlist.shown ++ " since " ++ since.reading
      ++ " UTC.\nDisplaying the last five.\n\n"
  else
    countText f.videos.length ++ " been added to " ++ playlist.shown ++ " since " ++ since.reading
      ++ " UTC.\n\n"

theorem heading_of_perm (hperm : f.videos.Perm g.videos) (hoverflow : f.overflow = g.overflow)
    (since : Timestamp) (playlist : Json) :
    f.heading since playlist = g.heading since playlist := by
  rw [heading, heading, hperm.isEmpty_eq, hperm.length_eq, hoverflow]

/-- Videos with comparable times are announced in the order of their publication. -/
theorem announcement_of_isDated (h : IsDated hasOffset f.videos) (since : Timestamp)
    (playlist : Json) :
    f.announcement since playlist = .ok (f.heading since playlist ++
      Text.joined "\n" ((inOrder f.videos).mapIdx fun i v => line (i + 1) v)) := by
  unfold announcement heading
  split
  · rename_i hempty
    rw [List.isEmpty_iff.mp hempty, inOrder, List.mergeSort_nil]
    exact congrArg Except.ok (List.append_nil _).symm
  · rw [ordered_of_isDated h]
    by_cases hoverflow : f.overflow
    · simp only [hoverflow, if_true]
      rfl
    · simp only [hoverflow]
      rfl

/-! ## The next search -/

/-- Whether a video is the first of those in a list that were published last. -/
def IsLatest (latest : Video) (videos : List Video) : Prop :=
  ∃ front back, videos = front ++ latest :: back ∧
    (∀ v ∈ front, v.instant < latest.instant) ∧ ∀ v ∈ back, v.instant ≤ latest.instant

variable {latest other : Video}

theorem IsLatest.mem (h : IsLatest latest videos) : latest ∈ videos := by
  obtain ⟨front, back, rfl, -, -⟩ := h
  exact List.mem_append_right _ List.mem_cons_self

theorem IsLatest.le (h : IsLatest latest videos) : ∀ v ∈ videos, v.instant ≤ latest.instant := by
  obtain ⟨front, back, rfl, hfront, hback⟩ := h
  refine List.forall_mem_append.mpr ⟨fun v hv => Int.le_of_lt (hfront v hv), ?_⟩
  exact List.forall_mem_cons.mpr ⟨Int.le_refl _, hback⟩

/-- Of videos published at different instants one was published last, in whatever order they
stand. -/
theorem IsLatest.unique (h : IsLatest latest videos) (h' : IsLatest other shown)
    (hperm : videos.Perm shown) (hnodup : (videos.map Video.instant).Nodup) : latest = other :=
  List.inj_on_of_nodup_map hnodup h.mem (hperm.symm.subset h'.mem)
    (Int.le_antisymm (h'.le _ (hperm.subset h.mem)) (h.le _ (hperm.symm.subset h'.mem)))

/-- The next search starts at the first of the videos that were published last. -/
theorem exists_isLatest (h : IsDated hasOffset f.videos) (hne : f.videos ≠ []) (now : Timestamp) :
    ∃ latest, IsLatest latest f.videos ∧ f.nextSince now = .ok latest.published := by
  obtain ⟨next, hnext⟩ := exists_nextSince h now
  rcases exists_append_of_nextSince hnext with
    ⟨hnone, -⟩ | ⟨front, latest, back, t, hvideos, rfl, ht, hfront, hback⟩
  · exact absurd hnone hne
  · refine ⟨latest, ⟨front, back, hvideos, fun v hv => ?_, fun v hv => ?_⟩, hnext⟩
    · obtain ⟨t', ht', hlt⟩ := hfront v hv
      rwa [Video.instant_of_moment? ht', Video.instant_of_moment? ht]
    · obtain ⟨t', ht', hle⟩ := hback v hv
      rwa [Video.instant_of_moment? ht', Video.instant_of_moment? ht]

theorem nextSince_of_perm (h : IsDated hasOffset f.videos) (hperm : f.videos.Perm g.videos)
    (hnodup : (f.videos.map Video.instant).Nodup) (now : Timestamp) :
    g.nextSince now = f.nextSince now := by
  by_cases hne : f.videos = []
  · have hne' : g.videos = [] := List.nil_perm.mp (hne ▸ hperm)
    rw [nextSince, nextSince, Finding.latest, Finding.latest, hne, hne']
  · have hne' : g.videos ≠ [] := fun hnil => hne (List.perm_nil.mp (hnil ▸ hperm))
    obtain ⟨latest, hlatest, hnext⟩ := exists_isLatest h hne now
    obtain ⟨other, hother, hnext'⟩ :=
      exists_isLatest (fun v hv => h v (hperm.symm.subset hv)) hne' now
    rw [hnext, hnext', hlatest.unique hother hperm hnodup]

theorem instant_lt_of_ofResponse (h : ofResponse since body = .ok f) :
    ∀ v ∈ f.videos, since.instant < v.instant := by
  intro v hv
  obtain ⟨t, ht, -, hlt⟩ := Video.isNew_iff.mp (mem_of_ofResponse h hv).2
  rwa [Video.instant_of_moment? ht]

/-! ## Announcements in any order -/

/-- **Announcements follow the order of publication.** What a search has found is announced under a
heading as a list numbered from one, which holds each video once in the order of publication, those
of one instant in the order of the response. The next search starts at the first of the videos that
were published last, which is after the time from which this one started. Of videos published at
different instants neither the announcement nor the next search depends on the order in which they
were found. -/
theorem announcement_arranges :
    (∀ since body f, ofResponse since body = .ok f →
      IsDated since.hasOffset f.videos ∧
      (∀ start playlist, ∃ shown, Arranges shown f.videos ∧
        f.announcement start playlist = .ok (f.heading start playlist ++
          Text.joined "\n" (shown.mapIdx fun i v => line (i + 1) v))) ∧
      (f.videos ≠ [] → ∀ now, ∃ latest, IsLatest latest f.videos ∧
        since.instant < latest.instant ∧ f.nextSince now = .ok latest.published)) ∧
    ∀ (hasOffset : Bool) (f g : Finding), IsDated hasOffset f.videos →
      f.videos.Perm g.videos → (f.videos.map Video.instant).Nodup →
      f.overflow = g.overflow → ∀ start playlist now,
        (∃ text, f.announcement start playlist = .ok text ∧
          g.announcement start playlist = .ok text) ∧
        ∃ next, f.nextSince now = .ok next ∧ g.nextSince now = .ok next := by
  constructor
  · intro since body f h
    have hdated := isDated_of_ofResponse h
    refine ⟨hdated, fun start playlist => ?_, fun hne now => ?_⟩
    · exact ⟨_, arranges_inOrder _, announcement_of_isDated hdated start playlist⟩
    · obtain ⟨latest, hlatest, hnext⟩ := exists_isLatest hdated hne now
      exact ⟨latest, hlatest, instant_lt_of_ofResponse h latest hlatest.mem, hnext⟩
  · intro hasOffset f g hdated hperm hnodup hoverflow start playlist now
    have hdated' : IsDated hasOffset g.videos := fun v hv => hdated v (hperm.symm.subset hv)
    have hshown : inOrder f.videos = inOrder g.videos :=
      (arranges_inOrder _).unique (arranges_inOrder _) hperm hnodup
    obtain ⟨next, hnext⟩ := exists_nextSince hdated now
    refine ⟨⟨_, announcement_of_isDated hdated start playlist, ?_⟩, next, hnext, ?_⟩
    · rw [announcement_of_isDated hdated' start playlist, hshown,
        heading_of_perm hperm hoverflow]
    · rw [nextSince_of_perm hdated hperm hnodup, hnext]

/-- Three times of publication, the latest first, though its text is not the greatest. -/
def scatteredOffsets : List Text :=
  ["2023-03-05T00:00:00Z", "2023-03-05T01:00:00+02:00", "20230305T001500,5+00:30"]

/-- The videos are found at the three times, and from whichever end they are read the next search
starts at one of them. -/
theorem announcement_arranges_scatteredOffsets :
    ∃ f, ofResponse Watcher.firstMoment (.ofDates scatteredOffsets) = .ok f ∧
      IsDated true f.videos ∧ f.videos ≠ [] ∧ (f.videos.map Video.instant).Nodup ∧
      (∃ latest, IsLatest latest f.videos ∧
        f.nextSince Watcher.firstMoment = .ok latest.published) ∧
      ∃ text, f.announcement Watcher.firstMoment (.text "P") = .ok text ∧
        (Finding.mk f.videos.reverse f.overflow).announcement Watcher.firstMoment (.text "P") =
          .ok text := by
  have hcomparable : (Json.ofDates scatteredOffsets).IsComparable Watcher.firstMoment := by
    apply Json.isComparable_ofDates
    decide +kernel
  obtain ⟨f, hfound, hlength, hnodup⟩ : ∃ f,
      ofResponse Watcher.firstMoment (.ofDates scatteredOffsets) = .ok f ∧ f.videos.length = 3 ∧
        (f.videos.map Video.instant).Nodup :=
    ⟨_, (ofResponse_of_isWellShaped _ (Json.isWellShaped_ofDates _)).1 hcomparable,
      by decide +kernel, by decide +kernel⟩
  have hne : f.videos ≠ [] := List.ne_nil_of_length_pos (by omega)
  obtain ⟨hresponse, horder⟩ := announcement_arranges
  obtain ⟨hdated, -, hnext⟩ := hresponse _ _ _ hfound
  obtain ⟨latest, hlatest, -, hstart⟩ := hnext hne Watcher.firstMoment
  refine ⟨f, hfound, hdated, hne, hnodup, ⟨latest, hlatest, hstart⟩, ?_⟩
  have hreverse := (List.reverse_perm f.videos).symm
  exact (horder true f ⟨f.videos.reverse, f.overflow⟩ hdated hreverse hnodup rfl _ _
    Watcher.firstMoment).1

end Finding

end DiceBot
