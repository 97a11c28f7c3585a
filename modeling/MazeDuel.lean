import MazeDuel.Main
import MazeDuel.Turn.StandingOrders
import MazeDuel.Proofs.Script.Players
import MazeDuel.Proofs.Script.Labels
import MazeDuel.Proofs.Script.Unclosed
import MazeDuel.Proofs.World.Carving
import MazeDuel.Proofs.Turn.OrderSteps
import MazeDuel.Proofs.Turn.Over
import MazeDuel.Proofs.Turn.Closing
import MazeDuel.Proofs.Turn.TimerSteps
import MazeDuel.Proofs.Turn.Pending
import MazeDuel.Proofs.Turn.Wakeful
import MazeDuel.Proofs.Turn.LastWord
import MazeDuel.Proofs.Turn.Outcome
import MazeDuel.Proofs.Turn.Staleness
import MazeDuel.Proofs.Turn.BigStep
import MazeDuel.Proofs.Turn.Pace
import MazeDuel.Proofs.Turn.Unattended
import MazeDuel.Proofs.Turn.Drafts
import MazeDuel.Proofs.Turn.Uses
import MazeDuel.Proofs.Turn.Trace
import MazeDuel.Proofs.Turn.Winnable
import MazeDuel.Proofs.Match.Restart
import MazeDuel.Proofs.Match.Settings
import MazeDuel.Proofs.Match.Frames
import MazeDuel.Proofs.Turn.Refused
import MazeDuel.Proofs.World.Edits
import MazeDuel.Proofs.Script.Cursor
import MazeDuel.Proofs.Script.Enclosed
import MazeDuel.Proofs.Script.Splicing
import MazeDuel.Proofs.World.Reloading
import MazeDuel.Proofs.World.Consistency
import MazeDuel.Proofs.World.Moves
import MazeDuel.Proofs.World.Pictures
import MazeDuel.Proofs.World.Wounds
import MazeDuel.Proofs.Turn.Courses
import MazeDuel.Proofs.Turn.Polling
