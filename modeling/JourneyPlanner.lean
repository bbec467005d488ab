import JourneyPlanner.Report
import JourneyPlanner.Proofs.Search.Itinerary
import JourneyPlanner.Proofs.Search.Profiles
import JourneyPlanner.Proofs.Search.Continuity
import JourneyPlanner.Proofs.Search.LegCosts
import JourneyPlanner.Proofs.Search.Compromises
import JourneyPlanner.Proofs.Search.Merge
import JourneyPlanner.Proofs.Mirror.Runs
import JourneyPlanner.Proofs.Relisting.Runs
import JourneyPlanner.Proofs.Relaxation.Runs
import JourneyPlanner.Proofs.Lookup.Search
import JourneyPlanner.Proofs.Extension.Runs
import JourneyPlanner.Proofs.Circles.Runs
import JourneyPlanner.Proofs.Duality.Runs
import JourneyPlanner.Proofs.Pruning.Runs
import JourneyPlanner.Proofs.Network.Contents
import JourneyPlanner.Proofs.Network.Catching
import JourneyPlanner.Proofs.Pareto.Calls
import JourneyPlanner.Proofs.Search.Slack
import JourneyPlanner.Proofs.Search.Tables
import JourneyPlanner.Proofs.Scanning.Runs
import JourneyPlanner.Proofs.Network.Filtering
import JourneyPlanner.Proofs.Journey.Chain
import JourneyPlanner.Proofs.Search.Tenure
import JourneyPlanner.Proofs.Search.History
import JourneyPlanner.Proofs.Clock
import JourneyPlanner.Proofs.Pareto.Comparison
