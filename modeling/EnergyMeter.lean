import EnergyMeter.Main
import EnergyMeter.Operation
import EnergyMeter.Sim.Bench
import EnergyMeter.Proofs.Exchange
import EnergyMeter.Proofs.History
import EnergyMeter.Proofs.Session
import EnergyMeter.Proofs.FullRun
import EnergyMeter.Proofs.StartTrace
import EnergyMeter.Proofs.Configured
import EnergyMeter.Proofs.StartEffect
import EnergyMeter.Proofs.Lifecycle
import EnergyMeter.Proofs.Simulation
import EnergyMeter.Proofs.Transport
import EnergyMeter.Proofs.AskedAccesses
import EnergyMeter.Proofs.ChipAccess
import EnergyMeter.Proofs.RegisterRuns
import EnergyMeter.Proofs.Interference
import EnergyMeter.NodeSession
import EnergyMeter.Proofs.ErrorCause
import EnergyMeter.Proofs.NodeHandle
import EnergyMeter.Proofs.BenchAccount
import EnergyMeter.Proofs.SampleRun
import EnergyMeter.Proofs.ReadVote
import EnergyMeter.Proofs.DumpRun
import EnergyMeter.Proofs.SoftReset
import EnergyMeter.Proofs.SagThreshold
import EnergyMeter.Proofs.FieldUpdates
import EnergyMeter.Proofs.LogMirror
import EnergyMeter.Proofs.CountQuantity
import EnergyMeter.Proofs.SampleText
import EnergyMeter.Proofs.RegisterLookup
import EnergyMeter.Proofs.Configuration
import EnergyMeter.Proofs.NodeCalls
import EnergyMeter.Proofs.AccessorAgreement
