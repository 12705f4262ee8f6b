import WinInference.Core.StopChecker
import WinInference.KVCache.Allocator

/-!
# Requests and their token queues

`scheduler/request.hpp`: the token queue between the scheduler thread and the
HTTP thread, the request states, and the request record with the fields the
scheduler works on.

A token queue holds events up to its size; a push to a closed queue is refused,
a push to a full one is refused and counted, and a pop takes the oldest event.
The states of a request are those of the header, terminal or not; the counts of
tokens are narrowed to an `int32_t`, as its accessors do.
-/

namespace Qwen

/-- One event on a token queue. -/
inductive TokenEvent where
  | token (tokenId : Int) (text : Bytes)
  | complete (reason : FinishReason)
  | error (error : Error)
deriving DecidableEq

/-- Thread-safe token queue; every method is one critical section. -/
structure TokenQueue where
  events : List TokenEvent := []
  maxSize : Nat := 1024
  closed : Bool := false
  droppedCount : Nat := 0
deriving DecidableEq

namespace TokenQueue

/-- Push a token event; `false` when the queue is closed or full. -/
def push (q : TokenQueue) (event : TokenEvent) : Bool × TokenQueue :=
  if q.closed then (false, q)
  else if q.events.length ≥ q.maxSize then
    (false, { q with droppedCount := q.droppedCount + 1 })
  else (true, { q with events := q.events ++ [event] })

/-- Pop the oldest event, if there is one. -/
def pop (q : TokenQueue) : Option TokenEvent × TokenQueue :=
  match q.events with
  | [] => (none, q)
  | event :: rest => (some event, { q with events := rest })

/-- `close()`: nothing more can be pushed. -/
def close (q : TokenQueue) : TokenQueue := { q with closed := true }

end TokenQueue

/-- Request state in the scheduler. -/
inductive RequestState where
  | received
  | queued
  | prefilling
  | decoding
  | completed
  | cancelled
  | errored
  | rejected
deriving DecidableEq

/-- Whether a request in the state has ended. -/
def RequestState.isTerminal : RequestState → Bool
  | .completed | .cancelled | .errored | .rejected => true
  | _ => false

/-- Logits for one position.  The scheduler only asks whether there are any;
the values are exact numbers here. -/
structure Logits where
  data : List Rat := []
  vocabSize : Int := 0
deriving DecidableEq

/-- Timeout deadlines; `none` is `time_point::max()`. -/
structure RequestTiming where
  queueDeadline : Option Nat := none
  requestDeadline : Option Nat := none
  decodeDeadline : Option Nat := none
deriving DecidableEq

/-- A deadline has passed at clock reading `now`. -/
def timedOut (deadline : Option Nat) (now : Nat) : Bool :=
  match deadline with
  | none => false
  | some d => now > d

/-- Inference request with all state.  The sampling parameters are exact
numbers. -/
structure Request where
  id : String
  inputTokens : List Int := []
  temperature : Rat := 1
  topP : Rat := 1
  maxTokens : Int := 2048
  stopSequences : List Bytes := []
  seed : Option Int := none
  state : RequestState := .received
  /-- the flag of the cancel token, when the request has one -/
  cancelToken : Option Bool := some false
  outputTokens : List Int := []
  outputText : Bytes := []
  finishReason : FinishReason := .none
  error : Option Error := none
  prefillLogits : Logits := {}
  kvCache : KVCacheHandle := {}
  assignedDevices : List Int := []
  timing : RequestTiming := {}
  tokenQueue : Option TokenQueue := none

namespace Request

/-- `is_terminal()`. -/
def isTerminal (r : Request) : Bool := r.state.isTerminal

/-- `is_cancelled()`: the token exists and is set. -/
def isCancelled (r : Request) : Bool := r.cancelToken = some true

/-- `input_tokens.size() + max_tokens` in `size_t`. -/
def contextLength (r : Request) : Nat :=
  sizeAdd r.inputTokens.length (toSize r.maxTokens)

/-- `prompt_tokens()`, as an `int`. -/
def promptTokens (r : Request) : Int := toInt32 r.inputTokens.length

/-- `completion_tokens()`, as an `int`. -/
def completionTokens (r : Request) : Int := toInt32 r.outputTokens.length

/-- `total_tokens()`, as an `int`. -/
def totalTokens (r : Request) : Int := toInt32 (r.promptTokens + r.completionTokens)

end Request

end Qwen
