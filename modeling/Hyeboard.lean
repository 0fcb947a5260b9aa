import Hyeboard.Lib.Runs
import Hyeboard.VnuRefresh.Stores
import Hyeboard.VnuRefresh.DurableObject
import Hyeboard.VnuRefresh.Revocation
import Hyeboard.VnuRefresh.ExactProofs
import Hyeboard.VnuRefresh.Validity
import Hyeboard.VnuRefresh.Chain
import Hyeboard.VnuRefresh.RateLimits
import Hyeboard.VnuRefresh.Retention
import Hyeboard.VnuRefresh.RedisCoordinator
import Hyeboard.VnuRefresh.PostgresSessions
import Hyeboard.VnuRefresh.Routes
import Hyeboard.Lib.Watch
import Hyeboard.VnuRefresh.RedisConcurrency
import Hyeboard.ProbeBudget.DurableObject
import Hyeboard.ProbeBudget.Effects
import Hyeboard.ProbeBudget.Leases
import Hyeboard.ProbeBudget.Session
import Hyeboard.FeaturePolicy.Freshness
import Hyeboard.FeaturePolicy.History
import Hyeboard.Lib.ExpiringKeys
import Hyeboard.ProbeBudget.Agreement
import Hyeboard.BulkLookup.Acceptance
import Hyeboard.FeaturePolicy.Delivery
import Hyeboard.Automation.EventStream
import Hyeboard.Automation.WellFormed
import Hyeboard.Sessions.Logout
import Hyeboard.VnuRefresh.CleanupTiming
import Hyeboard.VnuRefresh.Janitor
import Hyeboard.VnuRefresh.LogoutTwice
import Hyeboard.CrossLookup.Allowance
import Hyeboard.CrossLookup.OraclePermits
import Hyeboard.CrossLookup.Search
import Hyeboard.CrossLookup.SelfDenial
import Hyeboard.Automation.Consumer
import Hyeboard.Automation.ControlDelivery
import Hyeboard.Automation.Outcome
import Hyeboard.Captcha.Answers
import Hyeboard.CrossDetail.Batch
import Hyeboard.CrossDetail.BatchAnswers
import Hyeboard.CrossDetail.BatchFailure
import Hyeboard.CrossLookup.BulkCharges
import Hyeboard.Ha.Forward
import Hyeboard.ProbeBudget.Brc1Permits
import Hyeboard.SingleFlight.Effects
import Hyeboard.SingleFlight.Sound
import Hyeboard.SingleFlight.Wakeups
import Hyeboard.WebSession.Accounts
import Hyeboard.WebSession.Flights
import Hyeboard.WebSession.LateResponses
import Hyeboard.GradesHtml.Pieces
import Hyeboard.Automation.ControlFailures
import Hyeboard.Automation.Enqueue
import Hyeboard.BulkLookup.Execution
import Hyeboard.Daotao.Cookies
import Hyeboard.Grades.Summaries
import Hyeboard.Grades.SummariesConserve
import Hyeboard.Lib.Base64
import Hyeboard.Lib.Json
import Hyeboard.Lib.JsonText
import Hyeboard.Lib.Numbers
import Hyeboard.Lib.Regex
import Hyeboard.Permits.Bodies
import Hyeboard.Permits.RoundTrip
import Hyeboard.Export.CsvExport
import Hyeboard.WebSession.Replays
import Hyeboard.FeaturePolicy.Paging
import Hyeboard.AdminLogin.Limiters
import Hyeboard.AdminLogin.SignIn
import Hyeboard.Uet.VietnamDates
import Hyeboard.LoginForm.Regions
import Hyeboard.WebAccounts.AllOrNothing
import Hyeboard.Automation.JobLeases
import Hyeboard.Envelopes.RoundTrip
import Hyeboard.Migrations.Runner
import Hyeboard.StaticAssets.Paths
