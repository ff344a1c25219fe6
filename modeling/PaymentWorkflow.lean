import PaymentWorkflow.Table
import PaymentWorkflow.Runs
import PaymentWorkflow.Search
import PaymentWorkflow.JsonCore
import PaymentWorkflow.SchemaCore
import PaymentWorkflow.TextCore
import PaymentWorkflow.EngineCore
import PaymentWorkflow.DeliveryCore
import PaymentWorkflow.PaymentCore
import PaymentWorkflow.WorkerCore
import PaymentWorkflow.SystemCore
import PaymentWorkflow.PublishCore
import PaymentWorkflow.SeedCore
import PaymentWorkflow.ValidatorCore
import PaymentWorkflow.ValidatorProofs
import PaymentWorkflow.PublishProofs
import PaymentWorkflow.EngineRows
import PaymentWorkflow.ProcessView
import PaymentWorkflow.EngineSound
import PaymentWorkflow.EngineMoves
import PaymentWorkflow.EngineWrites
import PaymentWorkflow.EngineCalls
import PaymentWorkflow.EngineSteps
import PaymentWorkflow.EngineKept
import PaymentWorkflow.SystemMoves
import PaymentWorkflow.SystemCalls
import PaymentWorkflow.SystemRuns
import PaymentWorkflow.DeliveryCalls
import PaymentWorkflow.SignalProofs
import PaymentWorkflow.DeliveryProofs
import PaymentWorkflow.AttemptTable
import PaymentWorkflow.JobTable
import PaymentWorkflow.WorldCore
import PaymentWorkflow.WorldProofs
import PaymentWorkflow.ClosingProofs
import PaymentWorkflow.BudgetProofs
import PaymentWorkflow.HandedProofs
import PaymentWorkflow.TrailProofs
import PaymentWorkflow.FaultProofs
import PaymentWorkflow.EndingProofs
import PaymentWorkflow.HistoryTable
import PaymentWorkflow.DecisionTable
import PaymentWorkflow.HistoryProofs
import PaymentWorkflow.CatalogCore
import PaymentWorkflow.Interleaving
import PaymentWorkflow.InvokerCore
import PaymentWorkflow.InvokerMoves
import PaymentWorkflow.CatalogProofs
import PaymentWorkflow.InvokerProofs
import PaymentWorkflow.ApiProofs
import PaymentWorkflow.DurabilityProofs
import PaymentWorkflow.IdempotencyProofs
import PaymentWorkflow.VersionProofs
import PaymentWorkflow.ExecutorCore
import PaymentWorkflow.ExecutorProofs
import PaymentWorkflow.RowLocks
import PaymentWorkflow.ReceiptCore
import PaymentWorkflow.ReceiptProofs
import PaymentWorkflow.ProcessLocks
import PaymentWorkflow.ProcessLockProofs
import PaymentWorkflow.OperationProofs
import PaymentWorkflow.SubmitCore
import PaymentWorkflow.SubmitMoves
import PaymentWorkflow.SubmitProofs
import PaymentWorkflow.RouteProofs
import PaymentWorkflow.AuditProofs
import PaymentWorkflow.AcceptProofs
import PaymentWorkflow.EndpointCore
import PaymentWorkflow.EndpointProofs
import PaymentWorkflow.IsolationProofs
import PaymentWorkflow.ReplayProofs
import PaymentWorkflow.GraphProofs
import PaymentWorkflow.PointerProofs
import PaymentWorkflow.MappingProofs
import PaymentWorkflow.JobCore
import PaymentWorkflow.JobProofs
import PaymentWorkflow.FlowCore
import PaymentWorkflow.FlowProofs
import PaymentWorkflow.FlowRuns
import PaymentWorkflow.ClaimableProofs
import PaymentWorkflow.ReceiptCalls
import PaymentWorkflow.OutboxProofs
import PaymentWorkflow.RepublishProofs
import PaymentWorkflow.PythonText
import PaymentWorkflow.PythonJson
import PaymentWorkflow.AdapterCore
import PaymentWorkflow.StampProofs
import PaymentWorkflow.AdapterProofs
import PaymentWorkflow.InboxProofs
import PaymentWorkflow.CallbackProofs
import PaymentWorkflow.ReceiptStore
import PaymentWorkflow.ManualCore
import PaymentWorkflow.DecisionProofs
import PaymentWorkflow.StartCore
import PaymentWorkflow.StartProofs
import PaymentWorkflow.OutcomeProofs
import PaymentWorkflow.DispatcherCore
import PaymentWorkflow.DispatcherProofs
import PaymentWorkflow.RecursionProofs
import PaymentWorkflow.PointerStandard
import PaymentWorkflow.ScopeProofs
import PaymentWorkflow.DecimalText
import PaymentWorkflow.AmountText
import PaymentWorkflow.AmountProofs
import PaymentWorkflow.Binary64
import PaymentWorkflow.YamlCore
import PaymentWorkflow.YamlProofs
import PaymentWorkflow.TakingCore
import PaymentWorkflow.TakingProofs
import PaymentWorkflow.TakingRuns
import PaymentWorkflow.Machine
import PaymentWorkflow.MachineProofs
import PaymentWorkflow.LedgerProofs
import PaymentWorkflow.MigrationCore
import PaymentWorkflow.MigrationProofs
import PaymentWorkflow.DeployProofs
import PaymentWorkflow.OrdinaryCalls
import PaymentWorkflow.PaymentEnds
import PaymentWorkflow.AgreementProofs
import PaymentWorkflow.BranchProofs
import PaymentWorkflow.OrdinaryClosings
import PaymentWorkflow.FleetCore
import PaymentWorkflow.FleetProofs
import PaymentWorkflow.FleetRuns
import PaymentWorkflow.FleetReports
import PaymentWorkflow.RelayCore
import PaymentWorkflow.RelayProofs
import PaymentWorkflow.RelayRuns
