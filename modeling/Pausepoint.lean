import Pausepoint.Config.Filter
import Pausepoint.Main
import Pausepoint.Proofs.Cli.Truncation
import Pausepoint.Proofs.Language.Arithmetic
import Pausepoint.Proofs.Language.Grammar
import Pausepoint.Proofs.Language.Inlining
import Pausepoint.Proofs.Language.Spelling
import Pausepoint.Proofs.Session.Breakpoints
import Pausepoint.Proofs.Session.Census
import Pausepoint.Proofs.Session.Delivery
import Pausepoint.Proofs.Session.Freshness
import Pausepoint.Proofs.Session.Hiding
import Pausepoint.Proofs.Session.Isolation
import Pausepoint.Proofs.Session.Release
import Pausepoint.Proofs.Session.Rollback
import Pausepoint.Proofs.Session.Turns
import Pausepoint.Proofs.World.Answers
import Pausepoint.Proofs.World.Detachment
import Pausepoint.Proofs.World.Intrusion
import Pausepoint.Proofs.World.Lockstep
import Pausepoint.Proofs.World.Showing
import Pausepoint.Proofs.World.Stepping
import Pausepoint.Proofs.World.Teardown
import Pausepoint.Proofs.World.Upkeep
import Pausepoint.World.Walk
