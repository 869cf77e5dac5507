import DiceBot.Main
import DiceBot.Proofs.Expr.Step
import DiceBot.Proofs.Expr.Grammar
import DiceBot.Proofs.Token.Cut
import DiceBot.Proofs.Checked
import DiceBot.Proofs.Expr.Alike
import DiceBot.Proofs.Text.Numeral
import DiceBot.Proofs.Dice.Plan
import DiceBot.Proofs.Dice.Flattening
import DiceBot.Proofs.Decimal.Range
import DiceBot.Proofs.Expr.Overflow
import DiceBot.Proofs.Dice.Trace
import DiceBot.Proofs.Dice.Boundary
import DiceBot.Proofs.Flag.Command
import DiceBot.Proofs.Token.Language
import DiceBot.Proofs.Expr.Leaves
import DiceBot.Proofs.Dice.Play
import DiceBot.Proofs.Dice.Drawn
import DiceBot.Proofs.Calendar.RoundTrip
import DiceBot.Proofs.Playlist.Finding
import DiceBot.Proofs.Playlist.Scene
import DiceBot.Proofs.Playlist.Added
import DiceBot.Proofs.Json.Numeral
import DiceBot.Proofs.Json.Quoted
import DiceBot.Proofs.Json.RoundTrip
import DiceBot.Proofs.Settings.File
import DiceBot.Proofs.Playlist.Announced
import DiceBot.Proofs.Playlist.Dates
import DiceBot.Proofs.Action.Reference
import DiceBot.Proofs.Action.Replies
import DiceBot.Proofs.Action.Names
import DiceBot.Proofs.Expr.Chain
import DiceBot.Proofs.Dice.Subtotal
import DiceBot.Proofs.Expr.Part
import DiceBot.Proofs.Decimal.Nearest
import DiceBot.Proofs.Json.CutOff
import DiceBot.Proofs.Json.Float
import DiceBot.Proofs.Settings.CutOff
import DiceBot.Proofs.Json.Distinct
import DiceBot.Proofs.Settings.Restart
import DiceBot.Proofs.Agreement
import DiceBot.Proofs.Expr.Moved
import DiceBot.Proofs.Dice.Spacing
import DiceBot.Proofs.Dice.Delivery
import DiceBot.Proofs.Chat.Confined
import DiceBot.Proofs.Playlist.Authority
import DiceBot.Proofs.Dice.Selection
import DiceBot.Proofs.Expr.Valueless
import DiceBot.Proofs.Playlist.Failure
import DiceBot.Proofs.Playlist.Ready
import DiceBot.Proofs.Playlist.Latest
import DiceBot.Proofs.Dice.Suffix
import DiceBot.Proofs.Expr.Blame
import DiceBot.Proofs.Dice.Run
import DiceBot.Proofs.Flag.Remainder
import DiceBot.Proofs.Token.Spaced
import DiceBot.Proofs.Dice.Reading
import DiceBot.Proofs.Dice.Halves
import DiceBot.Proofs.Dice.Critical
import DiceBot.Proofs.Calendar.Stored
import DiceBot.Proofs.Playlist.Arranged
import DiceBot.Proofs.Settings.Channels
import DiceBot.Proofs.Calendar.Reading
import DiceBot.Proofs.Playlist.Labelled
import DiceBot.Proofs.Decimal.Signs
import DiceBot.Proofs.Text.Emphasis
import DiceBot.Proofs.Dice.Emphasis
import DiceBot.Proofs.Text.Printable
import DiceBot.Proofs.Dice.Journal
