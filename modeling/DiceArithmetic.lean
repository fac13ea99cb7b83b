import DiceArithmetic.Session
import DiceArithmetic.Service
import DiceArithmetic.Source.Any
import DiceArithmetic.Proofs.Grammar
import DiceArithmetic.Proofs.Openings
import DiceArithmetic.Proofs.PhraseReading
import DiceArithmetic.Proofs.PlainReading
import DiceArithmetic.Proofs.Beginnings
import DiceArithmetic.Proofs.Viability
import DiceArithmetic.Proofs.ParseExactness
import DiceArithmetic.Proofs.Decimals
import DiceArithmetic.Proofs.Trials
import DiceArithmetic.Source.Recorded
import DiceArithmetic.Proofs.Draws
import DiceArithmetic.Proofs.Computing
import DiceArithmetic.Proofs.DiceParts
import DiceArithmetic.Proofs.Honesty
import DiceArithmetic.Proofs.LimitCheck
import DiceArithmetic.Proofs.Requests
import DiceArithmetic.Proofs.OverLimit
import DiceArithmetic.Proofs.RollLog
import DiceArithmetic.Proofs.TotalsReading
import DiceArithmetic.Proofs.TraceExplains
import DiceArithmetic.Proofs.SharedDice
import DiceArithmetic.Proofs.Restraint
import DiceArithmetic.Proofs.Endings
import DiceArithmetic.Proofs.Composition
import DiceArithmetic.Proofs.Replay
import DiceArithmetic.Proofs.Serving
import DiceArithmetic.Proofs.Undisturbed
import DiceArithmetic.Proofs.Reseeding
import DiceArithmetic.Proofs.Effects
import DiceArithmetic.Proofs.Provenance
import DiceArithmetic.Proofs.FailurePosition
import DiceArithmetic.Proofs.Printing
import DiceArithmetic.Proofs.FailureCauses
import DiceArithmetic.Proofs.Agreement
import DiceArithmetic.Proofs.ConsumedRolls
import DiceArithmetic.Proofs.StackMachine
import DiceArithmetic.Proofs.SelfReading
import DiceArithmetic.Proofs.LimitDecision
import DiceArithmetic.Proofs.Conversion
import DiceArithmetic.Proofs.Chronicle
import DiceArithmetic.Proofs.LogSetup
import DiceArithmetic.Proofs.LosslessReading
import DiceArithmetic.Proofs.SeededRolls
