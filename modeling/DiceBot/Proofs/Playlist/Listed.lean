import DiceBot.Proofs.Playlist.Finding

/-!
# Videos of a response

A response describes videos, whether they are new or not. What a search finds are those of them
that were published after the time from which it starts, and of the videos found the one published
last tells where the next search starts.

## Main definitions

* `Json.videos`: the videos that a response describes
* `Video.isNew`: whether a video was published after a given time

## Main results

* `Finding.ofResponse_eq_ok`: a search finds the new ones of the described videos
* `Finding.exists_append_of_latestFrom`: the video published last, among the others
-/

namespace DiceBot

/-- Timestamps can be compared if both have an offset or none has. -/
theorem Timestamp.isBefore?_eq_some_iff {t u : Timestamp} {b : Bool} :
    t.isBefore? u = some b ↔ t.hasOffset = u.hasOffset ∧ decide (t.instant < u.instant) = b := by
  unfold isBefore?
  split
  · rename_i hoffset
    rw [Option.some_inj]
    exact (and_iff_right hoffset).symm
  · rename_i hoffset
    exact iff_of_false nofun fun h => hoffset h.1

/-- When a video was published, if that is a timestamp. -/
def Video.moment? (v : Video) : Option Timestamp :=
  Timestamp.ofText? v.published

theorem Video.moment_eq_ok_iff {v : Video} {t : Timestamp} :
    v.moment = .ok t ↔ v.moment? = some t := by
  unfold moment moment?
  constructor
  · intro h
    split at h
    · rename_i u hu
      cases h
      exact hu
    · cases h
  · intro h
    rw [h]

/-- Whether a video was published after a given time. -/
def Video.isNew (since : Timestamp) (v : Video) : Bool :=
  v.moment?.any fun t => since.isBefore? t = some true

theorem Video.isNew_iff {since : Timestamp} {v : Video} :
    v.isNew since = true ↔ ∃ t, v.moment? = some t ∧ since.hasOffset = t.hasOffset ∧
      since.instant < t.instant := by
  rw [isNew, Option.any_eq_true]
  refine exists_congr fun t => and_congr_right fun _ => ?_
  rw [decide_eq_true_iff, Timestamp.isBefore?_eq_some_iff, decide_eq_true_iff]

/-- The video that an item describes. -/
def Video.ofItem (item : Json) : Except Playlist.Flaw Video := do
  let snippet ← Finding.member item "snippet" (.object [])
  match ← Finding.member snippet "publishedAt" (.text []) with
  | .text published => Finding.readVideo snippet published
  | _ => throw .notText

/-- The videos that a response describes; what describes none is passed over. -/
def Json.videos (body : Json) : List Video :=
  match Finding.member body "items" (.array []) >>= Finding.elements with
  | .ok items => items.filterMap fun item => (Video.ofItem item).toOption
  | .error _ => []

namespace Finding

variable {since : Timestamp}

theorem published_of_readVideo {snippet : Json} {published : Text} {v : Video}
    (h : readVideo snippet published = .ok v) : v.published = published := by
  obtain ⟨title, -, h⟩ := bind_eq_ok_iff.mp h
  obtain ⟨description, -, h⟩ := bind_eq_ok_iff.mp h
  obtain ⟨resource, -, h⟩ := bind_eq_ok_iff.mp h
  obtain ⟨id, -, h⟩ := bind_eq_ok_iff.mp h
  cases h
  rfl

/-- Whether a video is new is told by the time of publication of its item. -/
theorem isNew_of_readVideo (since : Timestamp) {snippet : Json} {published : Text} {v : Video}
    (h : readVideo snippet published = .ok v) :
    v.isNew since =
      (Timestamp.ofText? published).any fun t => since.isBefore? t = some true := by
  rw [Video.isNew, Video.moment?, published_of_readVideo h]

/-- Of an item the video is read that it describes, if that is new. -/
theorem readItem_eq_ok {item : Json} {found : Option Video} (h : readItem since item = .ok found) :
    found = (Video.ofItem item).toOption.filter (Video.isNew since) := by
  obtain ⟨snippet, hsnippet, h⟩ := bind_eq_ok_iff.mp h
  obtain ⟨value, hvalue, h⟩ := bind_eq_ok_iff.mp h
  split at h
  case h_2 => cases h
  rename_i published
  have hitem : Video.ofItem item = readVideo snippet published := by
    rw [Video.ofItem, hsnippet]
    change (member snippet "publishedAt" (.text []) >>= _) = _
    rw [hvalue]
    rfl
  rw [hitem]
  cases hread : readVideo snippet published with
  | error flaw =>
    split at h
    · cases h
      rfl
    · split at h
      · cases h
      · cases h
        rfl
      · rw [hread] at h
        cases h
  | ok v =>
    have hfilter : (Except.ok v : Except Playlist.Flaw Video).toOption.filter (Video.isNew since) =
        if v.isNew since then some v else none := rfl
    rw [hfilter, isNew_of_readVideo since hread]
    split at h
    · rename_i hunreadable
      cases h
      rw [hunreadable]
      rfl
    · rename_i t ht
      rw [ht]
      change found = if decide (since.isBefore? t = some true) then some v else none
      split at h
      · cases h
      · rename_i hbefore
        cases h
        rw [hbefore]
        rfl
      · rename_i hbefore
        rw [hread] at h
        cases h
        rw [hbefore]
        rfl

theorem readItems_eq_ok {items : List Json} {videos : List Video}
    (h : readItems since items = .ok videos) :
    videos = (items.filterMap fun item => (Video.ofItem item).toOption).filter
      (Video.isNew since) := by
  induction items generalizing videos with
  | nil =>
    cases h
    rfl
  | cons item rest ih =>
    obtain ⟨found, hfound, h⟩ := bind_eq_ok_iff.mp h
    obtain ⟨more, hmore, h⟩ := bind_eq_ok_iff.mp h
    cases h
    rw [ih hmore, readItem_eq_ok hfound, List.filterMap_cons]
    cases (Video.ofItem item).toOption with
    | none => rfl
    | some v =>
      rw [List.filter_cons, Option.filter_some]
      split
      · rfl
      · rfl

/-- A search finds the new ones of the described videos, or the last of them. -/
theorem ofResponse_eq_ok {body : Json} {f : Finding} (h : ofResponse since body = .ok f) :
    f = ofVideos (body.videos.filter (Video.isNew since)) := by
  obtain ⟨value, hvalue, h⟩ := bind_eq_ok_iff.mp h
  obtain ⟨items, hitems, h⟩ := bind_eq_ok_iff.mp h
  obtain ⟨videos, hvideos, h⟩ := bind_eq_ok_iff.mp h
  cases h
  have hbody : (member body "items" (.array []) >>= elements) = .ok items :=
    bind_eq_ok_iff.mpr ⟨value, hvalue, hitems⟩
  rw [readItems_eq_ok hvideos, Json.videos, hbody]

theorem mem_of_ofResponse {body : Json} {f : Finding} (h : ofResponse since body = .ok f)
    {v : Video} (hv : v ∈ f.videos) : v ∈ body.videos ∧ v.isNew since = true := by
  rw [ofResponse_eq_ok h] at hv
  exact List.mem_filter.mp (mem_of_mem_ofVideos hv)

theorem sublist_ofVideos (videos : List Video) : (ofVideos videos).videos.Sublist videos := by
  unfold ofVideos
  split
  · exact List.drop_sublist _ _
  · exact List.Sublist.refl _

theorem sublist_of_ofResponse {body : Json} {f : Finding} (h : ofResponse since body = .ok f) :
    f.videos.Sublist body.videos := by
  rw [ofResponse_eq_ok h]
  exact (sublist_ofVideos _).trans List.filter_sublist

/-! ## The video published last -/

/-- The video published last comes behind videos that were published before it, and in front of
videos that were published no later. -/
theorem exists_append_of_latestFrom {best v : Video} {moment : Timestamp} {videos : List Video}
    (hbest : best.moment? = some moment) (h : latestFrom best moment videos = .ok v) :
    ∃ t front back, v.moment? = some t ∧ moment.instant ≤ t.instant ∧
      best :: videos = front ++ v :: back ∧
      (∀ u ∈ front, ∃ t', u.moment? = some t' ∧ t'.instant < t.instant) ∧
      ∀ u ∈ back, ∃ t', u.moment? = some t' ∧ t'.instant ≤ t.instant := by
  induction videos generalizing best moment with
  | nil =>
    cases h
    exact ⟨moment, [], [], hbest, Int.le_refl _, rfl, nofun, nofun⟩
  | cons u rest ih =>
    obtain ⟨t', ht', h⟩ := bind_eq_ok_iff.mp h
    have hu := Video.moment_eq_ok_iff.mp ht'
    split at h
    case h_1 => cases h
    · rename_i hbefore
      obtain ⟨t, front, back, ht, hle, hvideos, hfront, hback⟩ := ih hu h
      have hlt := of_decide_eq_true (Timestamp.isBefore?_eq_some_iff.mp hbefore).2
      exact ⟨t, best :: front, back, ht, by omega, congrArg (best :: ·) hvideos,
        List.forall_mem_cons.mpr ⟨⟨moment, hbest, by omega⟩, hfront⟩, hback⟩
    · rename_i hbefore
      obtain ⟨t, front, back, ht, hle, hvideos, hfront, hback⟩ := ih hbest h
      have hge := of_decide_eq_false (Timestamp.isBefore?_eq_some_iff.mp hbefore).2
      cases front with
      | nil =>
        cases hvideos
        exact ⟨t, [], u :: rest, ht, hle, rfl, nofun,
          List.forall_mem_cons.mpr ⟨⟨t', hu, by omega⟩, hback⟩⟩
      | cons first front =>
        cases hvideos
        obtain ⟨⟨t'', ht'', hlt⟩, hfront⟩ := List.forall_mem_cons.mp hfront
        cases hbest.symm.trans ht''
        refine ⟨t, best :: u :: front, back, ht, hle, rfl, ?_, hback⟩
        exact List.forall_mem_cons.mpr
          ⟨⟨moment, hbest, hlt⟩, List.forall_mem_cons.mpr ⟨⟨t', hu, by omega⟩, hfront⟩⟩

/-- The next search starts at the time of the first video that was published last, or if there is
none at the time of this search. -/
theorem exists_append_of_nextSince {f : Finding} {now : Timestamp} {next : Text}
    (h : f.nextSince now = .ok next) :
    (f.videos = [] ∧ next = now.text) ∨
      ∃ front v back t, f.videos = front ++ v :: back ∧ v.published = next ∧ v.moment? = some t ∧
        (∀ u ∈ front, ∃ t', u.moment? = some t' ∧ t'.instant < t.instant) ∧
        ∀ u ∈ back, ∃ t', u.moment? = some t' ∧ t'.instant ≤ t.instant := by
  obtain ⟨latest, hlatest, h⟩ := bind_eq_ok_iff.mp h
  unfold Finding.latest at hlatest
  split at hlatest
  · rename_i hnone
    cases hlatest
    cases h
    exact .inl ⟨hnone, rfl⟩
  · rename_i v rest hvideos
    obtain ⟨t, ht, hlatest⟩ := bind_eq_ok_iff.mp hlatest
    obtain ⟨u, hu, hlatest⟩ := bind_eq_ok_iff.mp hlatest
    cases hlatest
    cases h
    obtain ⟨t', front, back, ht', -, happend, hfront, hback⟩ :=
      exists_append_of_latestFrom (Video.moment_eq_ok_iff.mp ht) hu
    exact .inr ⟨front, u, back, t', hvideos.trans happend, rfl, ht', hfront, hback⟩

/-- The next search starts no earlier than any video that was found, or if there is none at the
time of this search. -/
theorem exists_of_nextSince {f : Finding} {now : Timestamp} {next : Text}
    (h : f.nextSince now = .ok next) :
    (f.videos = [] ∧ next = now.text) ∨
      ∃ v ∈ f.videos, ∃ t, v.published = next ∧ v.moment? = some t ∧
        ∀ u ∈ f.videos, ∃ t', u.moment? = some t' ∧ t'.instant ≤ t.instant := by
  rcases exists_append_of_nextSince h with hnone | ⟨front, v, back, t, hvideos, hnext, ht, hall⟩
  · exact .inl hnone
  · rw [hvideos]
    refine .inr ⟨v, List.mem_append_right _ List.mem_cons_self, t, hnext, ht, ?_⟩
    obtain ⟨hfront, hback⟩ := hall
    refine List.forall_mem_append.mpr ⟨fun u hu => ?_, List.forall_mem_cons.mpr ⟨?_, hback⟩⟩
    · obtain ⟨t', ht', hlt⟩ := hfront u hu
      exact ⟨t', ht', Int.le_of_lt hlt⟩
    · exact ⟨t, ht, Int.le_refl _⟩

end Finding

end DiceBot
