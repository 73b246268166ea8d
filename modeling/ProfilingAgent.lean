import ProfilingAgent.Libpf
import ProfilingAgent.Reporter.State
import ProfilingAgent.Reporter.Pprof
import ProfilingAgent.Reporter.Intern
import ProfilingAgent.Reporter.GetProfile
import ProfilingAgent.Reporter.Meaning
import ProfilingAgent.Reporter.EncoderSpec
import ProfilingAgent.Reporter.Loops
import ProfilingAgent.Reporter.Drain
import ProfilingAgent.Reporter.Report
import ProfilingAgent.Reporter.TimeRange
import ProfilingAgent.Reporter.Ingest
import ProfilingAgent.Reporter.Interleave
import ProfilingAgent.Reporter.Provenance
import ProfilingAgent.Reporter.Serial
import ProfilingAgent.Reporter.Disjoint
import ProfilingAgent.Reporter.DisjointFiles
import ProfilingAgent.Reporter.Orders
import ProfilingAgent.Reporter.Minimal
import ProfilingAgent.Reporter.Mappings
import ProfilingAgent.Reporter.Names
import ProfilingAgent.Reporter.Samples
import ProfilingAgent.Reporter.Resource
import ProfilingAgent.Reporter.Export
import ProfilingAgent.Reporter.Delivery
import ProfilingAgent.Reporter.Shapes
import ProfilingAgent.Uploader.Attempt
import ProfilingAgent.Uploader.Run
import ProfilingAgent.Uploader.Protocol
import ProfilingAgent.Uploader.Admission
import ProfilingAgent.Uploader.Completion
