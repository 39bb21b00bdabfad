import ChargingSite.Document.Reader
import ChargingSite.Document.Writer
import ChargingSite.Proofs.Charger.Convergence
import ChargingSite.Proofs.Charger.CurveLimit
import ChargingSite.Proofs.Charger.FailedReallocation
import ChargingSite.Proofs.Simulation.Ceiling
import ChargingSite.Proofs.Simulation.LateArrival
import ChargingSite.Proofs.Simulation.Replay
import ChargingSite.Proofs.Simulation.Sessions
import ChargingSite.Proofs.Simulation.SplitCharger
import ChargingSite.Proofs.Simulation.Termination
import ChargingSite.Quantity.Formula
import ChargingSite.Report.ModelFigures
import ChargingSite.Report.Run
import ChargingSite.Report.Table
import ChargingSite.Scenario.Validation
import ChargingSite.Scenario.Written
import ChargingSite.Proofs.Curve.MeanPower
import ChargingSite.Proofs.Scenario.Verdict
import ChargingSite.Proofs.Vehicle.Model
import ChargingSite.Proofs.Simulation.NeverBack
import ChargingSite.Proofs.Simulation.FrameStream
import ChargingSite.Proofs.Charger.Ramp
import ChargingSite.Proofs.Report.Series
import ChargingSite.Proofs.Vehicle.DefinedPower
import ChargingSite.Proofs.Number.Decimal.Places
import ChargingSite.Proofs.Report.Run
import ChargingSite.Proofs.Quantity.Division
import ChargingSite.Proofs.Vehicle.StateOfCharge
import ChargingSite.Proofs.Scenario.Validity
import ChargingSite.Proofs.Scenario.Resolution
