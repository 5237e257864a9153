import Orquesta.AtMostOnce
import Orquesta.SessionBinding.Rotation
import Orquesta.OrganizationStore.Histories
import Orquesta.ExecutionKernel.BridgeRuns
import Orquesta.ExecutionKernel.DesktopMessages
import Orquesta.ExecutionKernel.Acyclic
import Orquesta.MessageLedger.Histories
import Orquesta.Workflow.Results
import Orquesta.ContextPack
import Orquesta.Projector.Terminal
import Orquesta.Contract.PlanGraph
import Orquesta.Contract.Verdict
import Orquesta.ContextReceipts.ResumePlan
import Orquesta.Projector.Dependencies
import Orquesta.ExecutionKernel.FinalReports
