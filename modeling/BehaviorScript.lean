import BehaviorScript.Main
import BehaviorScript.Outline
import BehaviorScript.Probe
import BehaviorScript.Proofs.Basic
import BehaviorScript.Proofs.Builtins
import BehaviorScript.Proofs.Compilation
import BehaviorScript.Proofs.Contract
import BehaviorScript.Proofs.Destinations
import BehaviorScript.Proofs.Extent
import BehaviorScript.Proofs.Grammar
import BehaviorScript.Proofs.Interpreter
import BehaviorScript.Proofs.Lexemes
import BehaviorScript.Proofs.Meaning
import BehaviorScript.Proofs.Parsing
import BehaviorScript.Proofs.PrintedText
import BehaviorScript.Proofs.Printer
import BehaviorScript.Proofs.Realization
import BehaviorScript.Proofs.RoundTrip
import BehaviorScript.Proofs.Run
import BehaviorScript.Proofs.Simulation
import BehaviorScript.Proofs.StateTable
import BehaviorScript.Proofs.Layout
import BehaviorScript.Proofs.Partition
import BehaviorScript.Proofs.Seams
import BehaviorScript.Proofs.BusQueue
import BehaviorScript.Proofs.Declaration
import BehaviorScript.Proofs.BoundProperties
import BehaviorScript.Proofs.ParseFaults
import BehaviorScript.Proofs.Stages
import BehaviorScript.Proofs.DiagnosticLines
import BehaviorScript.Proofs.Reuse
import BehaviorScript.Proofs.Watching
import BehaviorScript.Proofs.Correspondence
import BehaviorScript.Proofs.LentMessages
import BehaviorScript.Proofs.LostPositions
import BehaviorScript.Proofs.PassingMessages
import BehaviorScript.Proofs.Registration
import BehaviorScript.Proofs.ByteOrder
import BehaviorScript.Proofs.Census
import BehaviorScript.Proofs.LineTails
import BehaviorScript.Proofs.Deliveries
import BehaviorScript.Proofs.RaisedFaults
import BehaviorScript.Proofs.ExitCode
import BehaviorScript.Proofs.Recipients
import BehaviorScript.Proofs.CallSites
import BehaviorScript.Proofs.Resolution
import BehaviorScript.Proofs.TransitionOrder
import BehaviorScript.Proofs.RunSection
import BehaviorScript.Proofs.LastError
import BehaviorScript.Proofs.MoreActions
import BehaviorScript.Proofs.NameLookups
import BehaviorScript.Proofs.AppendedStates
import BehaviorScript.Proofs.LetterCase
import BehaviorScript.Proofs.WrittenSends
import BehaviorScript.Proofs.BareArrows
import BehaviorScript.Proofs.Lookahead
import BehaviorScript.Proofs.OptionSpellings
import BehaviorScript.Proofs.CallableNames
import BehaviorScript.Proofs.DeadBranches
import BehaviorScript.Proofs.ForwardRuns
import BehaviorScript.Proofs.PropertyTable
import BehaviorScript.Proofs.Numerals
