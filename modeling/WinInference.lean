import WinInference.Api.MaxTokens
import WinInference.Api.Reply
import WinInference.Api.SSEStreamer
import WinInference.Api.Stream
import WinInference.Backend.NullBackend
import WinInference.Backend.Steering
import WinInference.Concurrency.RelyGuarantee
import WinInference.Scheduler.Drain
import WinInference.Scheduler.Turns
import WinInference.Core.SampledToken
import WinInference.Gpu.Protocol
import WinInference.KVCache.Accounts
import WinInference.KVCache.Conservation
import WinInference.KVCache.Queries
import WinInference.KVCache.Repeats
import WinInference.KVCache.Slots
import WinInference.Scheduler.Admission
import WinInference.Scheduler.Backlog
import WinInference.Scheduler.Batch
import WinInference.Scheduler.Deadlines
import WinInference.Scheduler.Depth
import WinInference.Scheduler.Cancellation
import WinInference.Scheduler.Delivery
import WinInference.Scheduler.Gauge
import WinInference.Scheduler.Headroom
import WinInference.Scheduler.Outcome
import WinInference.Scheduler.Placement
import WinInference.Scheduler.Sampling
import WinInference.Scheduler.Shutdown
import WinInference.Scheduler.StopSequences
import WinInference.Scheduler.StopTokens
import WinInference.Tokenizer.Bpe
import WinInference.Tokenizer.PromptBuilder
import WinInference.Tokenizer.Scanning
import WinInference.Utils.Cancellation
import WinInference.Utils.Metrics
import WinInference.Api.Client
import WinInference.Api.Body
import WinInference.Api.Server
import WinInference.Api.Answer
import WinInference.Scheduler.QueueSleepers
