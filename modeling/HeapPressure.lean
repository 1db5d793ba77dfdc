import HeapPressure.Memory.Workbench
import HeapPressure.Exhaust.Fixture
import HeapPressure.Report.Json
import HeapPressure.Settings.Json
import HeapPressure.Settings.Toml
import HeapPressure.Log.Session
import HeapPressure.Harness.Orchestrate
import HeapPressure.Machine.Host
import HeapPressure.Main
import HeapPressure.Proofs.Exhaust.Trace
import HeapPressure.Proofs.Exhaust.Rationed
import HeapPressure.Proofs.Exhaust.Growth
import HeapPressure.Proofs.Exhaust.Depletion
import HeapPressure.Proofs.Memory.Budget
import HeapPressure.Proofs.Memory.Nesting
import HeapPressure.Proofs.Report.Json
import HeapPressure.Proofs.Report.Verdicts
import HeapPressure.Proofs.Report.Reading
import HeapPressure.Proofs.Settings.Files
import HeapPressure.Proofs.Settings.Overrides
import HeapPressure.Proofs.Settings.Acceptance
import HeapPressure.Proofs.Harness.Preparation
import HeapPressure.Proofs.Harness.Outcomes
import HeapPressure.Proofs.Exhaust.Supply
import HeapPressure.Proofs.Exhaust.Reporting
import HeapPressure.Proofs.Log.Quiet
import HeapPressure.Proofs.Log.Uniform
import HeapPressure.Proofs.Machine.Fixture
import HeapPressure.Proofs.Report.Output
import HeapPressure.Proofs.Report.Display
import HeapPressure.Proofs.Report.Usage
import HeapPressure.Proofs.Harness.Timeouts
import HeapPressure.Proofs.Shell.Patterns
import HeapPressure.Proofs.Shell.Quoting
import HeapPressure.Proofs.Shell.Evaluation
import HeapPressure.Proofs.Machine.Collecting
