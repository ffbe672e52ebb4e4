import Replatform.DeveloperTask
import Replatform.Planner
import Replatform.Proofs.ArtifactLog
import Replatform.Proofs.Assembly.Grouping
import Replatform.Proofs.Assembly.Growth
import Replatform.Proofs.Assembly.Order
import Replatform.Proofs.Assembly.Separation
import Replatform.Proofs.Assembly.Session
import Replatform.Proofs.Document.Nulls
import Replatform.Proofs.Git.Answers
import Replatform.Proofs.Git.Calls
import Replatform.Proofs.Layering
import Replatform.Proofs.Store.Distinct
import Replatform.Proofs.Store.Independence
import Replatform.Proofs.Store.Legible
import Replatform.Proofs.Store.Moved
import Replatform.Proofs.Store.Outcome
import Replatform.Proofs.Store.Portable
import Replatform.Proofs.Store.Safety
import Replatform.Proofs.Store.Settled
import Replatform.Proofs.Store.SourcePath
import Replatform.Proofs.Workbench
import Replatform.Proofs.Workflow.Failure
import Replatform.Proofs.Workflow.Sequential
import Replatform.Text.CodePage
import Replatform.Text.Encoding
