import ChatCommands.Engine.World
import ChatCommands.ErrorReport
import ChatCommands.Gateway
import ChatCommands.LogLevel
import ChatCommands.Main
import ChatCommands.Settings.Variables
import ChatCommands.TestRun.Session
import ChatCommands.Proofs.ProgramTrace
import ChatCommands.Proofs.TaskStep
import ChatCommands.Proofs.WorldDiscipline
import ChatCommands.Proofs.HostRequests
import ChatCommands.Proofs.DispatchCourse
import ChatCommands.Proofs.RunBook
import ChatCommands.Proofs.RunLedger
import ChatCommands.Proofs.CooldownSpacing
import ChatCommands.Proofs.GuardVerdict
import ChatCommands.Proofs.GuardedDispatch
import ChatCommands.Proofs.DispatchReturns
import ChatCommands.Proofs.DefinitionText
import ChatCommands.Proofs.BindingLaw
import ChatCommands.Proofs.ThreadPlay
import ChatCommands.Proofs.RunRecord
import ChatCommands.Proofs.ListenerThreads
import ChatCommands.Proofs.ListenerCalls
import ChatCommands.Proofs.StartOrder
import ChatCommands.Proofs.MiddlewareSweeps
import ChatCommands.Proofs.EmissionOrder
import ChatCommands.Proofs.DispatchStages
import ChatCommands.Proofs.TrackerSettles
import ChatCommands.Proofs.LoneDispatch
import ChatCommands.Proofs.DefinitionGrammar
import ChatCommands.Proofs.RegistryConstruction
import ChatCommands.Proofs.Routing
import ChatCommands.Proofs.CallTrails
import ChatCommands.Proofs.WorldScene
import ChatCommands.Proofs.CommandIndependence
import ChatCommands.Proofs.DeclarationOrder
import ChatCommands.Proofs.SlotOrder
import ChatCommands.Proofs.DataModel
import ChatCommands.Proofs.EmissionCourse
import ChatCommands.Proofs.StoppedEvents
import ChatCommands.Proofs.ListenerFailures
import ChatCommands.Proofs.RunsAcrossResets
import ChatCommands.Proofs.BuiltInMiddleware
import ChatCommands.Proofs.OutcomeCounts
import ChatCommands.Proofs.MessageLayout
import ChatCommands.Proofs.PreludeMatch
import ChatCommands.Proofs.CanonicalText
import ChatCommands.Proofs.BindingWalk
import ChatCommands.Proofs.LenientDates
import ChatCommands.Proofs.DigitTexts
import ChatCommands.Proofs.ReachedSlots
import ChatCommands.Proofs.IntegerReading
import ChatCommands.Proofs.MemberLookup
import ChatCommands.Proofs.DateWriting
import ChatCommands.Proofs.NumeralText
import ChatCommands.Proofs.NearestNumber
import ChatCommands.Proofs.NumberReading
import ChatCommands.Proofs.EffectiveMembers
import ChatCommands.Proofs.OptionSources
import ChatCommands.Proofs.LiveSweeps
