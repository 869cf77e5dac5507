import Mathlib.Data.List.Perm.Basic
import DiceBot.Playlist.Announcement
import DiceBot.Proofs.Checked

/-!
# Found videos

What a search finds in a response that lists videos with times of publication that can be
compared: the videos published after the time from which the search starts. If there are no more
of them than are announced at once, all are found, and the announcement has a line for each.

## Main definitions

* `Posting`: an item of a playlist that holds a video
* `Json.Lists`: a response lists some postings

## Main results

* `Finding.exists_ofResponse`: what is found in a response
* `Finding.nextSince_eq_ok`: the time from which the next search starts
* `Finding.exists_line_of_mem`: an announcement has a line for each video
-/

namespace DiceBot

/-! ## Postings -/

/-- An item of a playlist that holds a video, published at a time that can be compared. -/
structure Posting where
  /-- The item. -/
  item : Json
  /-- The video that it holds. -/
  video : Video
  /-- When the video was published. -/
  moment : Timestamp
  hasOffset : moment.hasOffset = true
  published : Timestamp.ofText? video.published = some moment
  described : ∃ snippet, Finding.member item "snippet" (.object []) = .ok snippet ∧
    Finding.member snippet "publishedAt" (.text []) = .ok (.text video.published) ∧
    Finding.readVideo snippet video.published = .ok video

namespace Posting

variable {since : Timestamp}

/-- Whether a video was published after a given time. -/
def isNew (since : Timestamp) (p : Posting) : Bool :=
  since.instant < p.moment.instant

/-- A video has one time of publication. -/
theorem moment_eq_of_video_eq {p q : Posting} (h : q.video = p.video) : q.moment = p.moment := by
  have hq := q.published
  rw [h, p.published] at hq
  exact (Option.some.inj hq).symm

/-- The video of an item is read if it is new. -/
theorem readItem_item (p : Posting) (h : since.hasOffset = true) :
    Finding.readItem since p.item = .ok (if p.isNew since then some p.video else none) := by
  obtain ⟨snippet, hsnippet, hpublished, hvideo⟩ := p.described
  have hbefore : since.isBefore? p.moment = some (p.isNew since) :=
    if_pos (h.trans p.hasOffset.symm)
  cases hnew : p.isNew since with
  | true => simp [Finding.readItem, hsnippet, hpublished, hvideo, p.published, hbefore, hnew, bind,
      Except.bind, pure, Except.pure]
  | false => simp [Finding.readItem, hsnippet, hpublished, p.published, hbefore, hnew, bind,
      Except.bind, pure, Except.pure]

end Posting

/-- A response lists some postings, in whatever order. -/
def Json.Lists (body : Json) (postings : List Posting) : Prop :=
  ∃ ps : List Posting, ps.Perm postings ∧
    Finding.member body "items" (.array []) = .ok (.array (ps.map Posting.item))

theorem Text.infix_joined {separator part : Text} {parts : List Text} (h : part ∈ parts) :
    part <:+: joined separator parts := by
  refine List.infix_of_mem_flatten ?_
  induction parts with
  | nil => cases h
  | cons first rest ih =>
    cases rest with
    | nil => exact h
    | cons second rest =>
      rw [List.intersperse_cons_cons]
      rcases List.mem_cons.mp h with rfl | h
      · exact List.mem_cons_self
      · exact List.mem_cons_of_mem _ (List.mem_cons_of_mem _ (ih h))

namespace Finding

variable {since : Timestamp} {f : Finding}

theorem readItems_map (h : since.hasOffset = true) (ps : List Posting) :
    readItems since (ps.map Posting.item) =
      .ok ((ps.filter (·.isNew since)).map Posting.video) := by
  induction ps with
  | nil => rfl
  | cons p ps ih =>
    rw [List.map_cons, readItems, p.readItem_item h, ih, List.filter_cons]
    by_cases hnew : p.isNew since
    · rw [if_pos hnew, if_pos hnew]
      rfl
    · rw [if_neg hnew, if_neg hnew]
      rfl

theorem mem_of_mem_ofVideos {videos : List Video} {v : Video} (h : v ∈ (ofVideos videos).videos) :
    v ∈ videos := by
  unfold ofVideos at h
  split at h
  · exact List.mem_of_mem_drop h
  · exact h

theorem ofVideos_of_not_overflow {videos : List Video} (h : (ofVideos videos).overflow = false) :
    (ofVideos videos).videos = videos := by
  unfold ofVideos at h ⊢
  split at h
  · cases h
  · rename_i hle
    rw [if_neg hle]

/-- What is found in a response that lists some postings. -/
theorem exists_ofResponse {body : Json} {postings : List Posting} (h : since.hasOffset = true)
    (hbody : body.Lists postings) :
    ∃ f, ofResponse since body = .ok f ∧
      (∀ v ∈ f.videos, ∃ p ∈ postings, p.isNew since ∧ p.video = v) ∧
      (f.overflow = false → ∀ p ∈ postings, p.isNew since → p.video ∈ f.videos) := by
  obtain ⟨ps, hperm, hitems⟩ := hbody
  refine ⟨ofVideos ((ps.filter (·.isNew since)).map Posting.video), ?_, fun v hv => ?_,
    fun hfew p hp hnew => ?_⟩
  · rw [ofResponse, hitems]
    show (readItems since (ps.map Posting.item) >>= fun videos => pure (ofVideos videos)) = _
    rw [readItems_map h]
    rfl
  · obtain ⟨p, hp, rfl⟩ := List.mem_map.mp (mem_of_mem_ofVideos hv)
    obtain ⟨hmem, hnew⟩ := List.mem_filter.mp hp
    exact ⟨p, hperm.mem_iff.mp hmem, hnew, rfl⟩
  · rw [ofVideos_of_not_overflow hfew]
    exact List.mem_map_of_mem (List.mem_filter.mpr ⟨hperm.mem_iff.mpr hp, hnew⟩)

/-! ## The next search -/

theorem mem_of_latestFrom {best v : Video} {moment : Timestamp} {videos : List Video}
    (h : latestFrom best moment videos = .ok v) : v ∈ best :: videos := by
  induction videos generalizing best moment with
  | nil =>
    cases h
    exact List.mem_cons_self
  | cons u rest ih =>
    obtain ⟨t, _, h⟩ := bind_eq_ok_iff.mp h
    split at h
    · cases h
    · exact List.mem_cons_of_mem _ (ih h)
    · rcases List.mem_cons.mp (ih h) with rfl | hv
      · exact List.mem_cons_self
      · exact List.mem_cons_of_mem _ (List.mem_cons_of_mem _ hv)

/-- The next search starts at the time of a video that was found, or if there is none at the time
of this search. -/
theorem nextSince_eq_ok {now : Timestamp} {next : Text} (h : f.nextSince now = .ok next) :
    (f.videos = [] ∧ next = now.text) ∨ ∃ v ∈ f.videos, next = v.published := by
  obtain ⟨latest, hlatest, h⟩ := bind_eq_ok_iff.mp h
  unfold Finding.latest at hlatest
  split at hlatest
  · rename_i hnone
    cases hlatest
    cases h
    exact .inl ⟨hnone, rfl⟩
  · rename_i v rest hvideos
    obtain ⟨t, _, hlatest⟩ := bind_eq_ok_iff.mp hlatest
    obtain ⟨u, hu, hlatest⟩ := bind_eq_ok_iff.mp hlatest
    cases hlatest
    cases h
    exact .inr ⟨u, hvideos ▸ mem_of_latestFrom hu, rfl⟩

/-! ## The announcement -/

/-- The line of a video with its number. -/
def line (number : Nat) (v : Video) : Text :=
  Text.natural number ++ ". " ++ v.title.shown ++ " - " ++ v.link

theorem exists_line_mem_lines {videos : List Video} {v : Video} (h : v ∈ videos) :
    ∃ n, line n v ∈ lines videos := by
  obtain ⟨i, hi, rfl⟩ := List.getElem_of_mem h
  exact ⟨i + 1, List.mem_mapIdx.mpr ⟨i, hi, rfl⟩⟩

theorem mem_ordered {list : List Video} (h : f.ordered = .ok list) {v : Video}
    (hv : v ∈ f.videos) : v ∈ list := by
  obtain ⟨dated, hdated, h⟩ := bind_eq_ok_iff.mp h
  split at h
  · cases h
    obtain ⟨⟨u, t⟩, hmem, hu⟩ := exists_of_mem_right (mapM_eq_ok_iff.mp hdated).flip hv
    obtain ⟨t', _, hu⟩ := bind_eq_ok_iff.mp hu
    cases hu
    exact List.mem_map_of_mem (List.mem_mergeSort.mpr hmem)
  · cases h

/-- An announcement has a line for each video that was found. -/
theorem exists_line_of_mem {playlist : Json} {text : Text}
    (h : f.announcement since playlist = .ok text) {v : Video} (hv : v ∈ f.videos) :
    ∃ n, line n v <:+: text := by
  unfold announcement at h
  split at h
  · rename_i hempty
    rw [List.isEmpty_iff.mp hempty] at hv
    cases hv
  · obtain ⟨list, hlist, h⟩ := bind_eq_ok_iff.mp h
    obtain ⟨n, hn⟩ := exists_line_mem_lines (mem_ordered hlist hv)
    have hline : line n v <:+: Text.joined "\n" (lines list) := Text.infix_joined hn
    refine ⟨n, hline.trans ?_⟩
    split at h
    · cases h
      exact (List.suffix_append _ _).isInfix
    · cases h
      exact (List.suffix_append _ _).isInfix

end Finding

end DiceBot
