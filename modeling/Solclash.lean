import Solclash.Foundations.RangedInt
import Solclash.Foundations.Fallible
import Solclash.Foundations.KeyedTotal
import Solclash.Foundations.FloorShare
import Solclash.Foundations.Parimutuel
import Solclash.Foundations.Histories
import Solclash.Foundations.Unwinding
import Solclash.Foundations.Balances
import Solclash.Foundations.Ledger
import Solclash.Foundations.DecimalScale
import Solclash.Foundations.NewestWins
import Solclash.Foundations.Codec
import Solclash.State
import Solclash.Math
import Solclash.Oracle
import Solclash.Accounts
import Solclash.Instructions.Market
import Solclash.Instructions.Resolution
import Solclash.Instructions.Settlement
import Solclash.Program
import Solclash.EventProtocol
import Solclash.EventBook
import Solclash.EventPurse
import Solclash.EventSchedule
import Solclash.Lifetimes
import Solclash.Lifecycle
import Solclash.Endings
import Solclash.EntryProtocol
import Solclash.Solvency
import Solclash.Bookkeeping
import Solclash.TerminalPhase
import Solclash.Payouts
import Solclash.Refusals
import Solclash.Positions
import Solclash.MathLaws
import Solclash.OracleDecision
import Solclash.PriceGate
import Solclash.Submissions
import Solclash.Candidates
import Solclash.Challenges
import Solclash.Finality
import Solclash.Exits
import Solclash.Recovery
import Solclash.Journal
import Solclash.Custody
import Solclash.Independence
import Solclash.Payoffs
import Solclash.Windup
import Solclash.Hedging
import Solclash.Activity
import Solclash.Scheduling
import Solclash.Symmetry
import Solclash.Timeline
import Solclash.AccountData
import Solclash.ReferenceVectors
