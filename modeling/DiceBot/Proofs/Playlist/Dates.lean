import DiceBot.Proofs.Playlist.Announced

/-!
# Times of publication that are no timestamps

What a playlist answers may hold any text for a time of publication, and so may the settings for
the time of the next search. A text that is no timestamp is passed over, or replaced by the time of
the first search, and the search goes on. A text that is a timestamp is not always harmless: one
without an offset cannot be compared with one that has an offset, and a search that has to compare
them fails.

## Main definitions

* `Json.IsSnippet`, `Json.IsWellShaped`: snippets and responses of the right shape
* `Json.IsComparable`: whether the times of publication can be compared with a given time

## Main results

* `Finding.ofResponse_of_isWellShaped`: what is found in a response of the right shape
* `Watcher.announced_iff_isComparable`: when a search of such a response succeeds
-/

namespace DiceBot

namespace Json

/-- A snippet of texts, each of which may be missing. -/
structure IsSnippet (snippet : Json) : Prop where
  title : ∃ t, Finding.member snippet "title" (.text []) = .ok (.text t)
  description : ∃ t, Finding.member snippet "description" (.text []) = .ok (.text t)
  published : ∃ t, Finding.member snippet "publishedAt" (.text []) = .ok (.text t)
  id : ∃ resource t, Finding.member snippet "resourceId" (.object []) = .ok resource ∧
    Finding.member resource "videoId" (.text []) = .ok (.text t)

/-- A response whose items hold snippets of texts. -/
def IsWellShaped (body : Json) : Prop :=
  ∃ items, Finding.member body "items" (.array []) = .ok (.array items) ∧
    ∀ item ∈ items, ∃ snippet, Finding.member item "snippet" (.object []) = .ok snippet ∧
      snippet.IsSnippet

end Json

/-- Whether the time of publication can be compared with a given time, unless it is no timestamp. -/
def Video.IsComparable (since : Timestamp) (v : Video) : Prop :=
  ∀ t, v.moment? = some t → since.hasOffset = t.hasOffset

/-- Whether the times of publication in a response can be compared with a given time. -/
def Json.IsComparable (since : Timestamp) (body : Json) : Prop :=
  ∀ v ∈ body.videos, v.IsComparable since

namespace Finding

variable {since : Timestamp} {item body : Json} {items : List Json} {v : Video}

/-! ## Reading items -/

/-- An item whose snippet holds texts describes a video. -/
theorem exists_ofItem {snippet : Json} (hsnippet : member item "snippet" (.object []) = .ok snippet)
    (h : snippet.IsSnippet) :
    ∃ v, member snippet "publishedAt" (.text []) = .ok (.text v.published) ∧
      readVideo snippet v.published = .ok v ∧ Video.ofItem item = .ok v := by
  obtain ⟨title, htitle⟩ := h.title
  obtain ⟨description, hdescription⟩ := h.description
  obtain ⟨published, hpublished⟩ := h.published
  obtain ⟨resource, id, hresource, hid⟩ := h.id
  have hvideo : readVideo snippet published =
      .ok ⟨.text title, .text description, .text id, published⟩ := by
    refine bind_eq_ok_iff.mpr ⟨_, htitle, bind_eq_ok_iff.mpr ⟨_, hdescription, ?_⟩⟩
    exact bind_eq_ok_iff.mpr ⟨_, hresource, bind_eq_ok_iff.mpr ⟨_, hid, rfl⟩⟩
  exact ⟨_, hpublished, hvideo,
    bind_eq_ok_iff.mpr ⟨_, hsnippet, bind_eq_ok_iff.mpr ⟨_, hpublished, hvideo⟩⟩⟩

/-- What becomes of an item whose snippet holds texts. -/
theorem exists_readItem_eq (since : Timestamp) {snippet : Json}
    (hsnippet : member item "snippet" (.object []) = .ok snippet) (h : snippet.IsSnippet) :
    ∃ v, Video.ofItem item = .ok v ∧ readItem since item =
      match v.moment? with
      | none => .ok none
      | some t =>
        match since.isBefore? t with
        | none => .error .incomparable
        | some new => .ok (if new then some v else none) := by
  obtain ⟨v, hpublished, hvideo, hitem⟩ := exists_ofItem hsnippet h
  refine ⟨v, hitem, ?_⟩
  simp only [readItem, hsnippet, hpublished, hvideo, bind, Except.bind, Video.moment?]
  cases Timestamp.ofText? v.published with
  | none => rfl
  | some t =>
    dsimp only
    cases since.isBefore? t with
    | none => rfl
    | some new => cases new <;> rfl

/-- An item fails exactly if its time of publication cannot be compared. -/
theorem readItem_of_isSnippet (since : Timestamp) {snippet : Json}
    (hsnippet : member item "snippet" (.object []) = .ok snippet) (h : snippet.IsSnippet) :
    ∃ v, Video.ofItem item = .ok v ∧
      (v.IsComparable since → ∃ found, readItem since item = .ok found) ∧
      (¬ v.IsComparable since → readItem since item = .error .incomparable) := by
  obtain ⟨v, hitem, hread⟩ := exists_readItem_eq since hsnippet h
  refine ⟨v, hitem, fun hcomparable => ?_, fun hcomparable => ?_⟩
  · rw [hread]
    cases hmoment : v.moment? with
    | none => exact ⟨none, rfl⟩
    | some t =>
      have hbefore : since.isBefore? t = some _ := if_pos (hcomparable t hmoment)
      dsimp only
      rw [hbefore]
      exact ⟨_, rfl⟩
  · rw [hread]
    cases hmoment : v.moment? with
    | none =>
      refine absurd ?_ hcomparable
      intro t ht
      rw [hmoment] at ht
      cases ht
    | some t =>
      have hne : ¬ since.hasOffset = t.hasOffset := by
        intro hoffset
        apply hcomparable
        intro u hu
        cases hmoment.symm.trans hu
        exact hoffset
      have hbefore : since.isBefore? t = none := if_neg hne
      dsimp only
      rw [hbefore]

/-- Items whose snippets hold texts can be read, or one of them cannot be compared. -/
theorem readItems_of_isSnippet (since : Timestamp)
    (h : ∀ item ∈ items, ∃ snippet, member item "snippet" (.object []) = .ok snippet ∧
      snippet.IsSnippet) :
    ((∀ v ∈ items.filterMap fun item => (Video.ofItem item).toOption, v.IsComparable since) →
      ∃ videos, readItems since items = .ok videos) ∧
    ((¬ ∀ v ∈ items.filterMap fun item => (Video.ofItem item).toOption, v.IsComparable since) →
      readItems since items = .error .incomparable) := by
  induction items with
  | nil => exact ⟨fun _ => ⟨[], rfl⟩, fun h => absurd nofun h⟩
  | cons item rest ih =>
    obtain ⟨⟨snippet, hsnippet, hshape⟩, hrest⟩ := List.forall_mem_cons.mp h
    obtain ⟨v, hitem, hok, herror⟩ := readItem_of_isSnippet since hsnippet hshape
    obtain ⟨ihOk, ihError⟩ := ih hrest
    have hvideos : ((item :: rest).filterMap fun item => (Video.ofItem item).toOption) =
        v :: rest.filterMap fun item => (Video.ofItem item).toOption := by
      rw [List.filterMap_cons, hitem]
      rfl
    rw [hvideos, List.forall_mem_cons]
    constructor
    · rintro ⟨hv, hothers⟩
      obtain ⟨found, hfound⟩ := hok hv
      obtain ⟨videos, hvideos⟩ := ihOk hothers
      exact ⟨_, bind_eq_ok_iff.mpr ⟨_, hfound, bind_eq_ok_iff.mpr ⟨_, hvideos, rfl⟩⟩⟩
    · intro hnot
      by_cases hv : v.IsComparable since
      · obtain ⟨found, hfound⟩ := hok hv
        have hothers := ihError fun hothers => hnot ⟨hv, hothers⟩
        exact bind_eq_error_iff.mpr (.inr ⟨_, hfound, bind_eq_error_iff.mpr (.inl hothers)⟩)
      · exact bind_eq_error_iff.mpr (.inl (herror hv))

/-- What is found in a response of the right shape. -/
theorem ofResponse_of_isWellShaped (since : Timestamp) (h : body.IsWellShaped) :
    (body.IsComparable since →
      ofResponse since body = .ok (ofVideos (body.videos.filter (Video.isNew since)))) ∧
    (¬ body.IsComparable since → ofResponse since body = .error .incomparable) := by
  obtain ⟨items, hitems, hshape⟩ := h
  have hbody : (member body "items" (.array []) >>= elements) = .ok items :=
    bind_eq_ok_iff.mpr ⟨_, hitems, rfl⟩
  have hvideos : body.videos = items.filterMap fun item => (Video.ofItem item).toOption := by
    rw [Json.videos, hbody]
  obtain ⟨hok, herror⟩ := readItems_of_isSnippet since hshape
  rw [← hvideos] at hok herror
  constructor
  · intro hcomparable
    obtain ⟨videos, hread⟩ := hok hcomparable
    rw [hvideos, ← readItems_eq_ok hread]
    exact bind_eq_ok_iff.mpr ⟨_, hitems, bind_eq_ok_iff.mpr ⟨_, rfl, bind_eq_ok_iff.mpr
      ⟨_, hread, rfl⟩⟩⟩
  · intro hcomparable
    refine bind_eq_error_iff.mpr (.inr ⟨_, hitems, bind_eq_error_iff.mpr (.inr ⟨_, rfl, ?_⟩)⟩)
    exact bind_eq_error_iff.mpr (.inl (herror hcomparable))

/-! ## Announcing what was found -/

/-- Whether videos have times of publication, all with an offset or all without. -/
def IsDated (hasOffset : Bool) (videos : List Video) : Prop :=
  ∀ v ∈ videos, ∃ t, v.moment? = some t ∧ t.hasOffset = hasOffset

variable {hasOffset : Bool} {videos : List Video} {f : Finding}

theorem isDated_of_ofResponse (h : ofResponse since body = .ok f) :
    IsDated since.hasOffset f.videos := by
  intro v hv
  obtain ⟨t, ht, hoffset, -⟩ := Video.isNew_iff.mp (mem_of_ofResponse h hv).2
  exact ⟨t, ht, hoffset.symm⟩

theorem exists_latestFrom (best : Video) {moment : Timestamp} (h : IsDated hasOffset videos)
    (hmoment : moment.hasOffset = hasOffset) : ∃ v, latestFrom best moment videos = .ok v := by
  induction videos generalizing best moment with
  | nil => exact ⟨best, rfl⟩
  | cons v rest ih =>
    obtain ⟨⟨t, ht, hoffset⟩, hrest⟩ := List.forall_mem_cons.mp h
    have hbefore : moment.isBefore? t = some _ := if_pos (hmoment.trans hoffset.symm)
    have hv := Video.moment_eq_ok_iff.mpr ht
    by_cases hlt : moment.instant < t.instant
    · obtain ⟨u, hu⟩ := ih v hrest hoffset
      refine ⟨u, bind_eq_ok_iff.mpr ⟨t, hv, ?_⟩⟩
      rw [hbefore, decide_eq_true hlt]
      exact hu
    · obtain ⟨u, hu⟩ := ih best hrest hmoment
      refine ⟨u, bind_eq_ok_iff.mpr ⟨t, hv, ?_⟩⟩
      rw [hbefore, decide_eq_false hlt]
      exact hu

theorem exists_nextSince (h : IsDated hasOffset f.videos) (now : Timestamp) :
    ∃ next, f.nextSince now = .ok next := by
  rw [nextSince, latest]
  cases hvideos : f.videos with
  | nil => exact ⟨now.text, rfl⟩
  | cons v rest =>
    rw [hvideos] at h
    obtain ⟨⟨t, ht, hoffset⟩, hrest⟩ := List.forall_mem_cons.mp h
    obtain ⟨u, hu⟩ := exists_latestFrom v hrest hoffset
    dsimp only
    rw [Video.moment_eq_ok_iff.mpr ht]
    refine ⟨u.published, ?_⟩
    refine bind_eq_ok_iff.mpr ⟨some u, bind_eq_ok_iff.mpr ⟨t, rfl, ?_⟩, rfl⟩
    exact bind_eq_ok_iff.mpr ⟨u, hu, rfl⟩

theorem exists_ordered (h : IsDated hasOffset f.videos) : ∃ list, f.ordered = .ok list := by
  have hmap : ∀ v ∈ f.videos, ∃ d, (do return (v, ← v.moment)) = .ok d := by
    intro v hv
    obtain ⟨t, ht, -⟩ := h v hv
    exact ⟨(v, t), bind_eq_ok_iff.mpr ⟨t, Video.moment_eq_ok_iff.mpr ht, rfl⟩⟩
  obtain ⟨dated, hdated⟩ := exists_mapM_eq_ok_iff.mpr hmap
  have hoffset : ∀ d ∈ dated, d.2.hasOffset = hasOffset := by
    intro d hd
    obtain ⟨v, hv, hvd⟩ := exists_of_mem_right (mapM_eq_ok_iff.mp hdated) hd
    obtain ⟨t, ht, hvd⟩ := bind_eq_ok_iff.mp hvd
    cases hvd
    obtain ⟨t', ht', hoffset⟩ := h v hv
    cases (Video.moment_eq_ok_iff.mp ht).symm.trans ht'
    exact hoffset
  have hcomparable : isComparable dated = true := by
    cases dated with
    | nil => rfl
    | cons d rest =>
      obtain ⟨hd, hrest⟩ := List.forall_mem_cons.mp hoffset
      exact List.all_eq_true.mpr fun e he => decide_eq_true ((hrest e he).trans hd.symm)
  exact ⟨_, bind_eq_ok_iff.mpr ⟨dated, hdated, if_pos hcomparable⟩⟩

theorem exists_announcement (h : IsDated hasOffset f.videos) (since : Timestamp)
    (playlist : Json) : ∃ text, f.announcement since playlist = .ok text := by
  obtain ⟨list, hlist⟩ := exists_ordered h
  rw [announcement]
  split
  · exact ⟨_, rfl⟩
  · rw [hlist]
    by_cases hoverflow : f.overflow
    · exact ⟨_, if_pos hoverflow⟩
    · exact ⟨_, if_neg hoverflow⟩

end Finding

namespace Watcher

variable {w : Watcher} {o : Occasion} {stored : Text} {body : Json}

theorem prepare_of_isWellShaped (w : Watcher) (since now : Timestamp) (h : body.IsWellShaped) :
    (body.IsComparable since → ∃ text next,
      (Finding.ofVideos (body.videos.filter (Video.isNew since))).announcement since
        w.keeper.settings.playlistName = .ok text ∧
      w.prepare since now body =
        .ok (.ofVideos (body.videos.filter (Video.isNew since)), text, next)) ∧
    (¬ body.IsComparable since → w.prepare since now body = .error .incomparable) := by
  obtain ⟨hok, herror⟩ := Finding.ofResponse_of_isWellShaped since h
  constructor
  · intro hcomparable
    have hfound := hok hcomparable
    have hdated := Finding.isDated_of_ofResponse hfound
    obtain ⟨text, htext⟩ :=
      Finding.exists_announcement hdated since w.keeper.settings.playlistName
    obtain ⟨next, hnext⟩ := Finding.exists_nextSince hdated now
    exact ⟨text, next, htext, bind_eq_ok_iff.mpr ⟨_, hfound, bind_eq_ok_iff.mpr ⟨_, htext,
      bind_eq_ok_iff.mpr ⟨_, hnext, rfl⟩⟩⟩⟩
  · intro hcomparable
    exact bind_eq_error_iff.mpr (.inl (herror hcomparable))

theorem since_fst (stored : Text) :
    (since stored).1 = (Timestamp.ofText? stored).getD firstMoment := by
  unfold since
  cases Timestamp.ofText? stored with
  | none => rfl
  | some t => rfl

theorem announce_of_prepare_error {flaw : Playlist.Flaw}
    (hstored : w.keeper.settings.playlistTimestamp = .text stored)
    (hfetch : o.fetch = .response body)
    (h : w.prepare (since stored).1 o.now body = .error flaw) :
    (w.announce o).announced = false ∧ (w.announce o).watcher = w ∧
      (w.announce o).reaction.failure = some (.playlist flaw) := by
  simp only [announce, hstored, hfetch, h, Reaction.fail, and_self]

theorem announce_of_prepare_ok {f : Finding} {text next : Text}
    (hstored : w.keeper.settings.playlistTimestamp = .text stored)
    (hfetch : o.fetch = .response body) (htaken : o.refusal = none)
    (h : w.prepare (since stored).1 o.now body = .ok (f, text, next)) :
    w.announce o = w.conclude (since stored).2 f text next := by
  simp only [announce, hstored, hfetch, h, htaken]

/-- What follows an announcement succeeds unless the time cannot be saved. -/
theorem conclude_of_saved {journal : List Entry} {f : Finding} {text next : Text}
    (hsaved : ∀ flaw, (w.conclude journal f text next).reaction.failure ≠ some (.settings flaw)) :
    (w.conclude journal f text next).announced = true ∧
      (w.conclude journal f text next).reaction.failure = none ∧
      (w.conclude journal f text next).reaction.messages = [.post text] := by
  unfold conclude at hsaved ⊢
  split
  · rename_i keeper flaw hkeeper
    rw [hkeeper] at hsaved
    exact absurd rfl (hsaved flaw)
  · exact ⟨rfl, rfl, rfl⟩

end Watcher

/-! ## Responses with given times of publication -/

namespace Json

/-- An item that holds a video with a given time of publication. -/
def datedItem (published : Text) : Json :=
  .object [("snippet", .object [("title", .text "T"), ("description", .text "d"),
    ("publishedAt", .text published), ("resourceId", .object [("videoId", .text "ID")])])]

/-- A response with an item for each of some times of publication. -/
def ofDates (dates : List Text) : Json :=
  .object [("items", .array (dates.map datedItem))]

theorem isWellShaped_ofDates (dates : List Text) : (ofDates dates).IsWellShaped := by
  refine ⟨dates.map datedItem, rfl, fun item hitem => ?_⟩
  obtain ⟨published, -, rfl⟩ := List.mem_map.mp hitem
  exact ⟨_, rfl, ⟨_, rfl⟩, ⟨_, rfl⟩, ⟨published, rfl⟩, _, _, rfl, rfl⟩

theorem videos_ofDates (dates : List Text) :
    (ofDates dates).videos = dates.map fun d => ⟨.text "T", .text "d", .text "ID", d⟩ := by
  change (dates.map datedItem).filterMap _ = _
  rw [List.filterMap_map, ← List.filterMap_eq_map]
  rfl

theorem isComparable_ofDates {since : Timestamp} {dates : List Text}
    (h : ∀ d ∈ dates, (Timestamp.ofText? d).all fun t => since.hasOffset = t.hasOffset) :
    (ofDates dates).IsComparable since := by
  intro v hv t ht
  rw [videos_ofDates] at hv
  obtain ⟨d, hd, rfl⟩ := List.mem_map.mp hv
  have hall := h d hd
  rw [show Timestamp.ofText? d = some t from ht] at hall
  exact of_decide_eq_true hall

end Json

/-! ## Searches in any response of the right shape -/

namespace Watcher

variable {w : Watcher} {o : Occasion} {stored : Text} {body : Json}

/-- A search whose response has the right shape, whose announcement is taken by the chat and whose
time can be saved succeeds exactly if the times of publication can be compared with the time from
which it starts. It announces the new videos; what is no timestamp is passed over. Where a time
cannot be compared, the search fails. -/
theorem announced_iff_isComparable
    (hstored : w.keeper.settings.playlistTimestamp = .text stored)
    (hfetch : o.fetch = .response body) (hshape : body.IsWellShaped) (htaken : o.refusal = none)
    (hsaved : ∀ flaw, (w.announce o).reaction.failure ≠ some (.settings flaw)) :
    ((w.announce o).announced = true ∧ (w.announce o).reaction.failure = none ↔
      body.IsComparable ((Timestamp.ofText? stored).getD firstMoment)) ∧
    ((w.announce o).announced = true → ∃ text,
      (Finding.ofVideos (body.videos.filter
        (Video.isNew ((Timestamp.ofText? stored).getD firstMoment)))).announcement
          ((Timestamp.ofText? stored).getD firstMoment) w.keeper.settings.playlistName = .ok text ∧
      (w.announce o).reaction.messages = [.post text]) ∧
    ((w.announce o).announced = false →
      (w.announce o).reaction.failure = some (.playlist .incomparable)) := by
  obtain ⟨hok, herror⟩ := prepare_of_isWellShaped w (since stored).1 o.now hshape
  rw [← since_fst]
  by_cases hcomparable : body.IsComparable (since stored).1
  · obtain ⟨text, next, htext, hprepare⟩ := hok hcomparable
    rw [announce_of_prepare_ok hstored hfetch htaken hprepare] at hsaved ⊢
    obtain ⟨hannounced, hnone, hmessages⟩ := conclude_of_saved hsaved
    refine ⟨iff_of_true ⟨hannounced, hnone⟩ hcomparable, fun _ => ⟨text, htext, hmessages⟩, ?_⟩
    rw [hannounced]
    exact nofun
  · obtain ⟨hnone, -, hfailure⟩ :=
      announce_of_prepare_error hstored hfetch (herror hcomparable)
    refine ⟨iff_of_false ?_ hcomparable, ?_, fun _ => hfailure⟩
    · rw [hnone]
      exact nofun
    · rw [hnone]
      exact nofun

/-- A watch whose time of the next search is a given text. -/
def storing (stored : Text) : Watcher where
  key := some "key"
  keeper := ⟨{ Settings.standard with playlistTimestamp := .text stored }, [], []⟩
  running := true

/-- A search at the beginning of the year, with items of given times of publication. -/
def searching (dates : List Text) : Occasion where
  fetch := .response (.ofDates dates)
  now := Scene.newYearEve.clock
  refusal := none

/-- Texts that are no timestamps, in the settings and in a response, do not keep a search from
announcing a new video. -/
theorem announced_of_unreadable :
    ((storing "yesterday").announce (searching ["tomorrow", "2023-12-31T00:00:00Z"])).announced =
        true ∧
      ((storing "yesterday").announce
        (searching ["tomorrow", "2023-12-31T00:00:00Z"])).reaction.failure = none := by
  have hunreadable : Timestamp.ofText? "yesterday" = none := by decide +kernel
  have hfailure : ((storing "yesterday").announce
      (searching ["tomorrow", "2023-12-31T00:00:00Z"])).reaction.failure = none := by
    decide +kernel
  refine (announced_iff_isComparable rfl rfl (Json.isWellShaped_ofDates _) rfl ?_).1.mpr ?_
  · rw [hfailure]
    exact nofun
  · rw [hunreadable]
    apply Json.isComparable_ofDates
    decide +kernel

/-- A date without a time of day has no offset. It cannot be compared with the time of the first
search, and the search fails. -/
theorem not_announced_of_naive_date :
    (Json.ofDates ["2024-01-01"]).IsWellShaped ∧
      ((storing Settings.firstTimestamp).announce (searching ["2024-01-01"])).announced = false ∧
      ((storing Settings.firstTimestamp).announce (searching ["2024-01-01"])).reaction.failure =
        some (.playlist .incomparable) :=
  ⟨Json.isWellShaped_ofDates _, by decide +kernel, by decide +kernel⟩

end Watcher

end DiceBot
