import DiceBot.Calendar.Reader
import DiceBot.Json.Basic

/-!
# Videos of a playlist

A playlist is asked for its items, and those that were published after a given time are the new
videos. What the playlist answers is not trusted: an item whose time of publication is no timestamp
is passed over, and a response of the wrong shape is a flaw.

## Main definitions

* `Playlist.Flaw`: why a response or its videos cannot be used
* `Video`: an item of a playlist
* `Finding`: the new videos
* `Finding.ofResponse`: the new videos of a response
* `Finding.latest`: the video published last
-/

namespace DiceBot

/-- Why a response or its videos cannot be used. -/
inductive Playlist.Flaw where
  /-- A value that has to be an object is none. -/
  | notObject
  /-- The items are no collection. -/
  | notCollection
  /-- A timestamp is no text. -/
  | notText
  /-- A text is no timestamp. -/
  | notTimestamp
  /-- Of two timestamps only one has an offset. -/
  | incomparable
deriving DecidableEq

/-- An item of a playlist. -/
structure Video where
  /-- The title. -/
  title : Json
  /-- The description. -/
  description : Json
  /-- The identifier of the video. -/
  id : Json
  /-- When the video was published, as it is written. -/
  published : Text

/-- When a video was published. -/
def Video.moment (v : Video) : Except Playlist.Flaw Timestamp :=
  match Timestamp.ofText? v.published with
  | some t => .ok t
  | none => .error .notTimestamp

/-- The new videos of a playlist. -/
structure Finding where
  /-- The videos in the order of the response. -/
  videos : List Video
  /-- Whether there were more and only the last ones are left. -/
  overflow : Bool

namespace Finding

/-- The most videos that are announced at once. -/
def maxAnnounced : Nat := 5

/-- The last videos of a list, as many as are announced at once. -/
def ofVideos (videos : List Video) : Finding :=
  if maxAnnounced < videos.length then
    { videos := videos.drop (videos.length - maxAnnounced), overflow := true }
  else { videos, overflow := false }

/-- A member of an object, or what stands for it when it is missing. -/
def member (j : Json) (name : Text) (absent : Json) : Except Playlist.Flaw Json :=
  match j with
  | .object members => .ok ((Json.find? members name).getD absent)
  | _ => .error .notObject

/-- What a value holds one by one: the items of an array, the code points of a text, the names of
an object. -/
def elements : Json → Except Playlist.Flaw (List Json)
  | .array items => .ok items
  | .text t => .ok (t.map fun c => .text [c])
  | .object members => .ok (members.map fun m => .text m.1)
  | _ => .error .notCollection

/-- The video that a snippet describes. -/
def readVideo (snippet : Json) (published : Text) : Except Playlist.Flaw Video := do
  let title ← member snippet "title" (.text [])
  let description ← member snippet "description" (.text [])
  let resource ← member snippet "resourceId" (.object [])
  let id ← member resource "videoId" (.text [])
  return { title, description, id, published }

/-- The video that an item describes, if it was published after a given time. -/
def readItem (since : Timestamp) (item : Json) : Except Playlist.Flaw (Option Video) := do
  let snippet ← member item "snippet" (.object [])
  match ← member snippet "publishedAt" (.text []) with
  | .text published =>
    match Timestamp.ofText? published with
    | none => return none
    | some moment =>
      match since.isBefore? moment with
      | none => throw .incomparable
      | some false => return none
      | some true => return some (← readVideo snippet published)
  | _ => throw .notText

/-- The videos among some items that were published after a given time. -/
def readItems (since : Timestamp) : List Json → Except Playlist.Flaw (List Video)
  | [] => .ok []
  | item :: rest => do
    let video ← readItem since item
    let videos ← readItems since rest
    return video.toList ++ videos

/-- The new videos of a response: those published after a given time. -/
def ofResponse (since : Timestamp) (response : Json) : Except Playlist.Flaw Finding := do
  let items ← elements (← member response "items" (.array []))
  return ofVideos (← readItems since items)

/-- Of a video and others the one that was published last; of several the first. -/
def latestFrom (best : Video) (moment : Timestamp) : List Video → Except Playlist.Flaw Video
  | [] => .ok best
  | v :: rest => do
    let t ← v.moment
    match moment.isBefore? t with
    | none => throw .incomparable
    | some true => latestFrom v t rest
    | some false => latestFrom best moment rest

/-- The video that was published last, if there is any video. -/
def latest (f : Finding) : Except Playlist.Flaw (Option Video) :=
  match f.videos with
  | [] => .ok none
  | v :: rest => do return some (← latestFrom v (← v.moment) rest)

/-- The time from which the next search starts: that of the video published last, or the time of
the search if nothing was found. -/
def nextSince (f : Finding) (now : Timestamp) : Except Playlist.Flaw Text := do
  match ← f.latest with
  | some v => return v.published
  | none => return now.text

/-- Whether the times of publication can be compared with one another. -/
def isComparable (dated : List (Video × Timestamp)) : Bool :=
  match dated with
  | [] => true
  | d :: rest => rest.all fun e => e.2.hasOffset = d.2.hasOffset

/-- The videos in the order of their publication; of several at one time the first in the response
comes first. -/
def ordered (f : Finding) : Except Playlist.Flaw (List Video) := do
  let dated ← f.videos.mapM fun v => do return (v, ← v.moment)
  if isComparable dated then
    return (dated.mergeSort fun a b => a.2.instant ≤ b.2.instant).map (·.1)
  else throw .incomparable

end Finding

end DiceBot
