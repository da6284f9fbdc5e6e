import Tabletop.Dice.Stored
import Tabletop.Engine.Persisted
import Tabletop.Main
import Tabletop.Proofs.Dice.Chains
import Tabletop.Proofs.Dice.Chosen
import Tabletop.Proofs.Dice.Combined
import Tabletop.Proofs.Dice.Count
import Tabletop.Proofs.Dice.FiniteTotal
import Tabletop.Proofs.Dice.Kept
import Tabletop.Proofs.Dice.Limit
import Tabletop.Proofs.Dice.Matches
import Tabletop.Proofs.Dice.Regular
import Tabletop.Proofs.Dice.Shown
import Tabletop.Proofs.Dice.Triggered
import Tabletop.Proofs.Engine.Dispatch
import Tabletop.Proofs.Engine.Emptiness
import Tabletop.Proofs.Engine.ErrorPlace
import Tabletop.Proofs.Engine.Prepare
import Tabletop.Proofs.Engine.Session
import Tabletop.Proofs.Expression.Canonical
import Tabletop.Proofs.Expression.Chain
import Tabletop.Proofs.Expression.Display
import Tabletop.Proofs.Expression.Grammar
import Tabletop.Proofs.Lexeme.Conditionals
import Tabletop.Proofs.Lexeme.Field
import Tabletop.Proofs.Reference.Candidates
import Tabletop.Proofs.Reference.Cell
import Tabletop.Proofs.Reference.Draws
import Tabletop.Proofs.Reference.Printed
import Tabletop.Proofs.Reference.Selection
import Tabletop.Proofs.ResultStore.Stored
import Tabletop.Proofs.ResultStore.View
import Tabletop.Proofs.Rolling.Replay
import Tabletop.Proofs.Rolling.Sequence
import Tabletop.Proofs.Settings.Stored
import Tabletop.Rolling.Sequence
