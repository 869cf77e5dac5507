import DiceBot.Chat.Basic
import DiceBot.Playlist.Announcement
import DiceBot.Settings.Keeper

/-!
# Watching a playlist

Once a day the bot asks a server for the items of a playlist, announces those that are new, and
keeps the time from which the next search starts. Developers start the watch and set the time back.
The time is moved on only after the announcement was sent.

## Main definitions

* `PlaylistRequest`, `Fetch`: what the server is asked, and what comes of it
* `Watcher`: the watch over a playlist
* `Watcher.announce`: one search with its announcement
* `Watcher.tick`: what happens once a day
* `Watcher.manage`, `Watcher.resume`, `Watcher.stop`: the watch started and stopped
-/

namespace DiceBot

/-- What the server is asked. -/
structure PlaylistRequest where
  /-- The playlist. -/
  playlist : Json
  /-- The key that the server wants to see. -/
  key : Option Text

namespace PlaylistRequest

/-- The parameters of the request: what is wanted of each item, and how many of them. -/
def parameters (r : PlaylistRequest) : List (Text × Json) :=
  [("part", .text "snippet"), ("playlistId", r.playlist), ("maxResults", .integer 50),
   ("key", (r.key.map Json.text).getD .null)]

end PlaylistRequest

/-- What comes of a request. -/
inductive Fetch where
  /-- The server responds. -/
  | response (body : Json)
  /-- There is no usable response, for a reason that is known. -/
  | failed (reason : Text)
  /-- The server cannot be reached at all. -/
  | unreachable

/-- What is told about a request without a usable response. -/
def fetchComplaint (reason : Text) : Text :=
  "There was a problem fetching new youtube videos: " ++ reason

/-- The watch over a playlist. -/
structure Watcher where
  /-- The key for the server, without which nothing is watched. -/
  key : Option Text
  /-- The settings. -/
  keeper : Keeper
  /-- Whether the watch is on. -/
  running : Bool

/-- What a search meets outside: the server, the clock and the chat. -/
structure Occasion where
  /-- What comes of the request. -/
  fetch : Fetch
  /-- The time. -/
  now : Timestamp
  /-- What the chat reports when a message is sent, if it does not take it. -/
  refusal : Option ServiceError

/-- What the watcher does about an event. -/
structure WatchReport where
  /-- The watcher afterwards. -/
  watcher : Watcher
  /-- What the bot does. -/
  reaction : Reaction := {}
  /-- The request that was made. -/
  request : Option PlaylistRequest := none
  /-- Whether an announcement was sent. -/
  announced : Bool := false

/-- A message sent by a bot, if the chat takes it. -/
def Message.sent (m : Message) (refusal : Option ServiceError) : Reaction :=
  match refusal with
  | none => .say m
  | some e => .fail (.service e)

namespace Watcher

/-- Whether a setting is there: nothing, zero and what is empty count as missing. -/
def isSet : Json → Bool
  | .null => false
  | .bool b => b
  | .integer n => n ≠ 0
  | .float x => x != 0.0
  | .text t => t ≠ []
  | .array items => !items.isEmpty
  | .object members => !members.isEmpty

/-- Whether there is a key for the server. -/
def hasKey (w : Watcher) : Bool :=
  w.key.any (· ≠ [])

/-- The time of the first search. -/
def firstMoment : Timestamp where
  date := ⟨2023, 2, 21, by decide, by decide, by decide, by decide⟩
  clock := Clock.midnight
  offset := some Offset.zero

/-- The time after which a video is new, and what the journal is told if the stored text is no
timestamp and the time of the first search stands for it. -/
def since (stored : Text) : Timestamp × List Entry :=
  match Timestamp.ofText? stored with
  | some t => (t, [])
  | none => (firstMoment, [⟨.error, "無法解析播放清單時間 " ++ stored.quoted ++ "，改用 "
      ++ Settings.firstTimestamp⟩])

/-- The request for the playlist of the settings. -/
def request (w : Watcher) : PlaylistRequest :=
  { playlist := w.keeper.settings.playlistId, key := w.key }

/-- The new videos of a response, with their announcement and the time of the next search. -/
def prepare (w : Watcher) (since now : Timestamp) (body : Json) :
    Except Playlist.Flaw (Finding × Text × Text) := do
  let finding ← Finding.ofResponse since body
  let announcement ← finding.announcement since w.keeper.settings.playlistName
  return (finding, announcement, ← finding.nextSince now)

/-- What follows when an announcement was sent: the time of the next search is kept. -/
def conclude (w : Watcher) (journal : List Entry) (finding : Finding) (announcement next : Text) :
    WatchReport :=
  let sent : List Message := [.post announcement]
  match w.keeper.setTimestamp (.text next) with
  | (keeper, some flaw) =>
    { watcher := { w with keeper }
      reaction := { messages := sent, journal, failure := some (.settings flaw) }
      request := some w.request }
  | (keeper, none) =>
    let done : Entry :=
      ⟨.info, "已通知 " ++ Text.natural finding.videos.length ++ " 部新影片"⟩
    { watcher := { w with keeper }
      reaction := { messages := sent, journal := journal ++ [done] }
      request := some w.request
      announced := true }

/-- One search with its announcement. -/
def announce (w : Watcher) (o : Occasion) : WatchReport :=
  match w.keeper.settings.playlistTimestamp with
  | .text stored =>
    let (since, journal) := since stored
    let stop (r : Reaction) : WatchReport :=
      { watcher := w, reaction := { r with journal := journal ++ r.journal }
        request := some w.request }
    match o.fetch with
    | .unreachable => stop (.fail .unreachable)
    | .failed reason =>
      stop { journal := [⟨.error, "查詢播放清單時出錯: " ++ fetchComplaint reason⟩] }
    | .response body =>
      match w.prepare since o.now body with
      | .error flaw => stop (.fail (.playlist flaw))
      | .ok (finding, announcement, next) =>
        match o.refusal with
        | some e => stop (.fail (.service e))
        | none => w.conclude journal finding announcement next
  | _ => { watcher := w, reaction := .fail (.playlist .notText) }

/-- A report in which a refusal of the chat is only written to the journal. -/
def tolerated (r : WatchReport) : WatchReport :=
  match r.reaction.failure with
  | some (.service (.refused report)) =>
    let noted : Entry := ⟨.error, "發送播放清單通知時出錯: " ++ report⟩
    { r with reaction := { r.reaction with
        journal := r.reaction.journal ++ [noted], failure := none } }
  | _ => r

/-- Whether the bot sees a channel of the settings. A list or an object that holds something cannot
be looked up among the channels at all. -/
def seesChannel (visible : List Int) : Json → Except Settings.Flaw Bool
  | .array (_ :: _) | .object (_ :: _) => .error .notSingle
  | channel => .ok (isSet channel && visible.any (Settings.equalsInteger · channel))

/-- What happens once a day: an announcement in the channel of the settings, if the bot sees it. -/
def tick (w : Watcher) (visible : List Int) (o : Occasion) : WatchReport :=
  let channel := w.keeper.settings.announceChannel
  match seesChannel visible channel with
  | .error flaw => { watcher := w, reaction := .fail (.settings flaw) }
  | .ok true => tolerated (w.announce o)
  | .ok false =>
    { watcher := w
      reaction := { journal := [⟨.warning, "找不到播放清單通知頻道 " ++ channel.shown⟩] } }

/-- The watch started in a channel, if there is a key for the server. -/
def begin (w : Watcher) (channel : Int) (refusal : Option ServiceError) : WatchReport :=
  if !w.hasKey then
    { watcher := w, reaction := (Message.post "YOUTUBE_API_KEY is not configured.").sent refusal }
  else match w.keeper.setChannel (.integer channel) with
    | (keeper, some flaw) =>
      { watcher := { w with keeper }, reaction := .fail (.settings flaw) }
    | (keeper, none) => { watcher := { w with keeper, running := true } }

/-- The time of the next search set back to the first one. -/
def reset (w : Watcher) (refusal : Option ServiceError) : WatchReport :=
  match w.keeper.setTimestamp (.text Settings.firstTimestamp) with
  | (keeper, some flaw) => { watcher := { w with keeper }, reaction := .fail (.settings flaw) }
  | (keeper, none) =>
    { watcher := { w with keeper }, reaction := (Message.post "Bot reset").sent refusal }

/-- The reaction to the command of developers; capital letters count as small ones. -/
def manage (w : Watcher) (author channel : Int) (action : Text) (refusal : Option ServiceError) :
    WatchReport :=
  match w.keeper.isDeveloper author with
  | .error flaw => { watcher := w, reaction := .fail (.settings flaw) }
  | .ok false => { watcher := w }
  | .ok true =>
    let action : Text := action.map CodePoint.asciiLower
    if action = "init" then w.begin channel refusal
    else if action = "reset" then w.reset refusal
    else
      { watcher := w, reaction := (Message.post "Supported actions: init, reset").sent refusal }

/-- The watch resumed after a start of the bot, if there are a key and a channel. -/
def resume (w : Watcher) : WatchReport :=
  if !(w.hasKey && isSet w.keeper.settings.announceChannel) then { watcher := w }
  else if w.running then { watcher := w, reaction := .fail .alreadyRunning }
  else { watcher := { w with running := true } }

/-- The watch stopped. -/
def stop (w : Watcher) : WatchReport :=
  { watcher := { w with running := false } }

end Watcher

end DiceBot
