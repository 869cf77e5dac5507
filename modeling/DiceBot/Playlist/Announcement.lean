import DiceBot.Json.Display
import DiceBot.Playlist.Video

/-!
# Announcements

How new videos are announced: a numbered list in the order of publication behind a heading that
tells how many there are, since when, and whether earlier ones are left out.

## Main definitions

* `Video.link`: where a video is found
* `Finding.lines`: the numbered list
* `Finding.announcement`: the announcement
-/

namespace DiceBot

/-- Where a video is found. -/
def Video.link (v : Video) : Text :=
  "https://www.youtube.com/watch?v=" ++ v.id.shown

namespace Finding

/-- A list of videos, numbered from one. -/
def lines (videos : List Video) : List Text :=
  videos.mapIdx fun i v => Text.natural (i + 1) ++ ". " ++ v.title.shown ++ " - " ++ v.link

/-- How many videos have been added. -/
def countText (n : Nat) : Text :=
  Text.natural n ++ (if n = 1 then " video has" else " videos have")

/-- The announcement of the videos that were found in a playlist since a given time. -/
def announcement (f : Finding) (since : Timestamp) (playlist : Json) :
    Except Playlist.Flaw Text := do
  if f.videos.isEmpty then
    return "No videos added to " ++ playlist.shown ++ " since " ++ since.reading
  else
    let list := Text.joined "\n" (lines (← f.ordered))
    if f.overflow then
      return "More than five videos have been added to " ++ playlist.shown ++ " since "
        ++ since.reading ++ " UTC.\nDisplaying the last five.\n\n" ++ list
    else
      return countText f.videos.length ++ " been added to " ++ playlist.shown ++ " since "
        ++ since.reading ++ " UTC.\n\n" ++ list

end Finding

end DiceBot
