import Reckon.Keypad
import Reckon.Proofs.Acceptance
import Reckon.Proofs.Agreement
import Reckon.Proofs.Batch.EndToEnd
import Reckon.Proofs.Batch.Settlement
import Reckon.Proofs.Conservation
import Reckon.Proofs.Keypad.Display
import Reckon.Proofs.Service.Isolation
import Reckon.Proofs.Service.Refinement
import Reckon.Proofs.Service.Survival
import Reckon.Service.Sequential
import Reckon.Proofs.Parentheses
import Reckon.Proofs.Layers
import Reckon.Proofs.Forest
import Reckon.Proofs.Keypad.Sign
import Reckon.Proofs.Spelling
import Reckon.Proofs.Batch.Rounds
import Reckon.Proofs.Batch.Limit
import Reckon.Proofs.DecimalValue
import Reckon.Proofs.Text.Lines
import Reckon.Proofs.Text.Cut
import Reckon.Proofs.Service.Hearing
import Reckon.Proofs.Batch.Loading
