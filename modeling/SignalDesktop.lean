import SignalDesktop.Proof.Fidelity
import SignalDesktop.Proof.Timeline
import SignalDesktop.Proof.Migration
import SignalDesktop.Proof.SchemaDrift
import SignalDesktop.Proof.Damage
import SignalDesktop.Proof.Wrapping
import SignalDesktop.Proof.CoverageGate
import SignalDesktop.Proof.GateRun
import SignalDesktop.Proof.Disclosure
import SignalDesktop.Proof.RowOrder
import SignalDesktop.Proof.Footprint
import SignalDesktop.Proof.History
import SignalDesktop.Proof.Growth
import SignalDesktop.Proof.StoreSql
import SignalDesktop.Proof.Failures
