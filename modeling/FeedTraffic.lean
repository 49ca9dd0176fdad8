import FeedTraffic.Main
import FeedTraffic.Mock.Server
import FeedTraffic.Proofs.BasePaths
import FeedTraffic.Proofs.CommandRequests
import FeedTraffic.Proofs.Conformance
import FeedTraffic.Proofs.CursorWindows
import FeedTraffic.Proofs.EvenPicks
import FeedTraffic.Proofs.Expectations
import FeedTraffic.Proofs.FeedRules
import FeedTraffic.Proofs.IdentifierVariables
import FeedTraffic.Proofs.PageTexts
import FeedTraffic.Proofs.Paging
import FeedTraffic.Proofs.ProfileReport
import FeedTraffic.Proofs.QuotedBodies
import FeedTraffic.Proofs.Refusals
import FeedTraffic.Proofs.RequestCounts
import FeedTraffic.Proofs.SampledParameters
import FeedTraffic.Proofs.ScenarioSteps
import FeedTraffic.Proofs.Selection
import FeedTraffic.Proofs.SharedSamples
import FeedTraffic.Proofs.Summaries
import FeedTraffic.Proofs.Targets
import FeedTraffic.Proofs.TaskEndpoints
import FeedTraffic.Proofs.Undeclared
import FeedTraffic.Proofs.VariableOrder
import FeedTraffic.Proofs.Visits
