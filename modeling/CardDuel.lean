import CardDuel.Proofs.Casting.Columns
import CardDuel.Proofs.Casting.Counting
import CardDuel.Proofs.Casting.Frame
import CardDuel.Proofs.Casting.Copying
import CardDuel.Proofs.Casting.Order
import CardDuel.Proofs.Casting.Sides
import CardDuel.Proofs.Casting.Trading
import CardDuel.Proofs.Casting.Twice
import CardDuel.Proofs.Custody
import CardDuel.Proofs.Goal.Announcements
import CardDuel.Proofs.Play.Beating
import CardDuel.Proofs.Play.Moderate
import CardDuel.Proofs.Play.Buffing
import CardDuel.Proofs.Play.Cloning
import CardDuel.Proofs.Play.Seeding
import CardDuel.Proofs.Play.Strength
import CardDuel.Proofs.Rounds
import CardDuel.Proofs.Scoring
import CardDuel.Proofs.Script.Bounds
import CardDuel.Proofs.Slots
import CardDuel.Proofs.Statistics.History
import CardDuel.Proofs.Statistics.Saving
import CardDuel.Resource
import CardDuel.Seat.Counters
import CardDuel.Table
import CardDuel.Proofs.Conditions
import CardDuel.Proofs.Script.Codes
import CardDuel.Proofs.Script.Lines
import CardDuel.Proofs.Script.Insertion
import CardDuel.Proofs.Script.Rules
import CardDuel.Proofs.Undoing
import CardDuel.Proofs.Goal.Overflow
import CardDuel.Proofs.Goal.Unlocking
import CardDuel.Proofs.Hands
import CardDuel.Proofs.Script.Rendering
import CardDuel.Proofs.Goal.Saving
import CardDuel.Proofs.Points
import CardDuel.Proofs.Script.Suits
import CardDuel.Proofs.Selections
import CardDuel.Proofs.Script.Numbers
import CardDuel.Proofs.Statistics.Draws
import CardDuel.Proofs.Goal.Duality
import CardDuel.Proofs.Play.Across
import CardDuel.Proofs.Play.Caps
import CardDuel.Proofs.Script.Numbering
