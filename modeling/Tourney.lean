import Tourney.Text.Blank
import Tourney.Text.Quoted
import Tourney.Number.Shortest
import Tourney.Number.Fixed
import Tourney.Number.Numeral
import Tourney.Timestamp
import Tourney.Uuid
import Tourney.Fault
import Tourney.Roster
import Tourney.Draw
import Tourney.Arena.Propagation
import Tourney.Elimination.Double
import Tourney.RoundRobin.Schedule
import Tourney.RoundRobin.Table
import Tourney.Swiss.Round
import Tourney.Groups
import Tourney.Tournament.Play
import Tourney.Json.Reader
import Tourney.Json.Printer
import Tourney.Desk.Basic
import Tourney.Snapshot.Desk
import Tourney.Main
import Tourney.Proofs.Arena.Coherence
import Tourney.Proofs.Arena.Settling
import Tourney.Proofs.Arena.Results
import Tourney.Proofs.Arena.Numbering
import Tourney.Proofs.Elimination.Layout
import Tourney.Proofs.Elimination.Seeding
import Tourney.Proofs.Elimination.Tree
import Tourney.Proofs.Arena.Flow
import Tourney.Proofs.Elimination.DoubleTree
import Tourney.Proofs.Elimination.Ladder
import Tourney.Proofs.Elimination.OneLoss
import Tourney.Proofs.Elimination.TwoLosses
import Tourney.Proofs.Roster
import Tourney.Proofs.Elimination.Opening
import Tourney.Proofs.Arena.Vacancies
import Tourney.Proofs.Elimination.Regular
import Tourney.Proofs.Elimination.GrandFinal
import Tourney.Proofs.Elimination.FirstRound
import Tourney.Proofs.RoundRobin.Schedule
import Tourney.Proofs.Except
import Tourney.Proofs.RoundRobin.Table
import Tourney.Proofs.Swiss.Pairing
import Tourney.Proofs.Swiss.Standing
import Tourney.Proofs.Swiss.Round
import Tourney.Proofs.Groups
import Tourney.Proofs.Tournament.Sound
import Tourney.Proofs.Tournament.Stages
import Tourney.Proofs.Tournament.Advance
import Tourney.Proofs.Tournament.Record
import Tourney.Proofs.Tournament.Create
import Tourney.Proofs.Tournament.Completion
import Tourney.Proofs.Tournament.TwoLosses
import Tourney.Proofs.Tournament.OneLoss
import Tourney.Proofs.Tournament.Progress
import Tourney.Proofs.Desk.Balance
import Tourney.Proofs.Desk.Accepted
import Tourney.Proofs.Desk.Calls
import Tourney.Proofs.Desk.Consistent
import Tourney.Proofs.RoundRobin.Totals
import Tourney.Proofs.RoundRobin.Ranking
import Tourney.Proofs.RoundRobin.Orders
import Tourney.Proofs.Tournament.League
import Tourney.Proofs.Tournament.Order
import Tourney.Proofs.Arena.Determined
import Tourney.Proofs.Swiss.Rounds
import Tourney.Proofs.Swiss.Exact
import Tourney.Proofs.Swiss.Byes
import Tourney.Proofs.Tournament.Books
import Tourney.Proofs.Swiss.Commute
import Tourney.Proofs.Tournament.Commute
import Tourney.Proofs.Desk.Refusals
import Tourney.Proofs.Tournament.Unheld
import Tourney.Proofs.Desk.Refinement
import Tourney.Proofs.Swiss.Search
import Tourney.Proofs.Swiss.Matching
import Tourney.Proofs.Swiss.Rematch
import Tourney.Proofs.Tournament.Rematch
import Tourney.Proofs.Swiss.Boards
import Tourney.Proofs.Tournament.Rounds
import Tourney.Proofs.Swiss.Telling
import Tourney.Proofs.Tournament.Standings
import Tourney.Proofs.RoundRobin.Accurate
import Tourney.Proofs.RoundRobin.Meetings
import Tourney.Proofs.Tournament.Fixtures
import Tourney.Proofs.Tournament.Tabled
import Tourney.Proofs.Tournament.Room
import Tourney.Proofs.Tournament.Drawn
import Tourney.Proofs.Tournament.WellFormed
import Tourney.Proofs.Tournament.Frame
import Tourney.Proofs.Desk.Frame
import Tourney.Proofs.Desk.Submissions
import Tourney.Proofs.Tournament.GrandFinal
import Tourney.Proofs.Tournament.Qualifiers
import Tourney.Proofs.Tournament.Generated
import Tourney.Proofs.Desk.Story
import Tourney.Proofs.Desk.Answers
import Tourney.Proofs.Desk.Restore
import Tourney.Proofs.Swiss.First
import Tourney.Proofs.Number.Value
import Tourney.Proofs.Tournament.Start
import Tourney.Proofs.Simulation.Limit
import Tourney.Proofs.Simulation.Settings
import Tourney.Proofs.Simulation.Playout
import Tourney.Proofs.Tournament.Modest
import Tourney.Proofs.Simulation.Staffed
import Tourney.Proofs.Simulation.Turn
import Tourney.Proofs.Number.Digits
import Tourney.Proofs.Json.Spelling
import Tourney.Proofs.Json.Reader
import Tourney.Proofs.Uuid
import Tourney.Proofs.Calendar
import Tourney.Proofs.Timestamp
import Tourney.Proofs.Number.Nearest
import Tourney.Proofs.Number.Shortest
import Tourney.Proofs.Number.Decimal
import Tourney.Proofs.Json.Record
import Tourney.Proofs.Snapshot.Match
import Tourney.Proofs.Snapshot.Tournament
import Tourney.Proofs.Elimination.Standard
import Tourney.Proofs.Swiss.WellPaired
import Tourney.Proofs.RoundRobin.Circle
import Tourney.Proofs.Elimination.Feeds
import Tourney.Proofs.Desk.Repair
import Tourney.Proofs.Elimination.SeededBracket
import Tourney.Proofs.Elimination.DoubleByes
import Tourney.Proofs.Arena.Cascade
import Tourney.Proofs.Desk.Stranded
import Tourney.Proofs.Tournament.AllOrNothing
