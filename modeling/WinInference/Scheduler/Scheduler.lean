import WinInference.Scheduler.State

/-!
# The scheduler

`scheduler.cpp` as programs of atomic actions.  Every function keeps its order
of actions, so other threads may run between any two of them.

An action is one critical section, or one access to a field that is not locked.
What the program does not decide itself, the clock, the logits, the sampled
token and the answers of the CUDA runtime, comes with the move as its `Answer`.
`code` gives each thread its body: the decode thread runs `decodeLoop`, each
request is submitted by a thread of its own, and the HTTP and the stopping
threads run between their actions.
-/

namespace Qwen

open Concurrency

/-- A piece of a scheduler thread. -/
abbrev Sched (A α : Type) := Program Answer (Scheduler A) α

namespace Scheduler

open Program

variable {A : Type}

/-! ## Submission -/

/-- Admission control, after the queue check. -/
def admitMemory [IKVCacheAllocator A] (r : RequestPtr) : Sched A (Result Unit) := do
  let placeable ← read (fun s : Scheduler A =>
    match s.gpuRouter with
    | none => true
    | some g =>
        let estimatedSeqLen := (s.requests r).contextLength
        g.canPlace estimatedSeqLen (estimateKvMemory estimatedSeqLen)
          ((IKVCacheAllocator.config s.kvAllocator).bytesForSeqLenPerDevice
            estimatedSeqLen))
  if placeable then
    let allocatable ← read (fun s : Scheduler A =>
      IKVCacheAllocator.canAllocate s.kvAllocator (s.requests r).contextLength)
    if allocatable then return .ok ()
    else return .error (.resourceExhausted "Insufficient memory for request")
  else return .error (.resourceExhausted "Insufficient GPU memory for request")

/-- Admission control. -/
def admitRequest [IKVCacheAllocator A] (d : SchedulerSetup) (r : RequestPtr) :
    Sched A (Result Unit) := do
  let full ← read (fun s : Scheduler A =>
    decide (s.pendingQueue.length ≥ d.config.maxQueueSize))
  if full then return .error (.resourceExhausted "Queue full")
  else admitMemory r

/-- A deadline `sec` seconds after `now`, in nanoseconds; none for zero. -/
def deadlineAfter (now sec : Nat) : Option Nat :=
  if sec > 0 then some (now + sec * 1000000000) else none

/-- The timeout deadlines set by `submit`. -/
def submitTiming (d : SchedulerSetup) (now : Nat) : RequestTiming :=
  { queueDeadline := deadlineAfter now d.config.queueTimeoutSec
    requestDeadline := deadlineAfter now d.config.requestTimeoutSec
    decodeDeadline := none }

/-- `set_state`: one section on the request. -/
def setState (r : RequestPtr) (newState : RequestState) : Sched A Unit :=
  update (fun s => s.modify r (fun q => { q with state := newState }))

/-- `submit`, after admission: register, mark as queued, set the deadlines and
push. -/
def accept (d : SchedulerSetup) (r : RequestPtr) : Sched A Unit := do
  update (·.registryAdd r)
  setState r .queued
  atomic (fun i s =>
    ((), s.modify r (fun q => { q with timing := submitTiming d i.now })))
  update (·.enqueue r)

/-- Submit a request for processing. -/
def submit [IKVCacheAllocator A] (d : SchedulerSetup) (r : RequestPtr) :
    Sched A (Result Unit) := do
  let running ← read (·.running)
  if running then
    match ← admitRequest d r with
    | .error e =>
        setState r .rejected
        update (fun s => s.modify r (fun q => { q with error := some e }))
        return .error e
    | .ok () =>
        accept d r
        return .ok ()
  else return .error (.internal "Scheduler not running")

/-! ## Release -/

/-- Free resources for a request. -/
def freeResources [IKVCacheAllocator A] (r : RequestPtr) : Sched A Unit := do
  let valid ← atomic (fun _ s =>
    let valid := (s.requests r).kvCache.isValid
    (valid, if valid then s.freeBudget r else s))
  if valid then update (·.freeKvCache r)
  else return ()

/-- The part that `complete_request` and `fail_request` share: the terminal
event and the close of the token queue, the release of resources, and the
removal from the active list and the registry. -/
def retire [IKVCacheAllocator A] (r : RequestPtr) (event : TokenEvent) : Sched A Unit := do
  update (·.pushEvent r event)
  update (·.closeQueue r)
  freeResources r
  update (·.eraseActive r)
  update (fun s => s.registryRemove (s.requests r).id)
  update (fun s => { s with requestsActive := s.requestsActive - 1 })

/-- Complete a request. -/
def completeRequest [IKVCacheAllocator A] (r : RequestPtr) (reason : FinishReason) :
    Sched A Unit := do
  update (fun s => s.modify r (fun q => { q with finishReason := reason }))
  setState r .completed
  retire r (.complete reason)
  update (fun s => { s with completedCount := s.completedCount + 1 })

/-- Fail a request with error. -/
def failRequest [IKVCacheAllocator A] (r : RequestPtr) (error : Error) : Sched A Unit := do
  update (fun s => s.modify r (fun q => { q with error := some error }))
  setState r .errored
  retire r (.error error)
  update (fun s => { s with erroredCount := s.erroredCount + 1 })

/-! ## Prefill -/

/-- The placement part of `run_prefill`: route, reserve, allocate, and commit
or unreserve. -/
def place [IKVCacheAllocator A] (r : RequestPtr) : Sched A (Result Unit) := do
  let decision ← atomic (fun _ s => s.routeRequest r)
  update (·.reserveBudget r decision)
  match ← atomic (fun i s => s.allocateFor i r decision) with
  | .error e =>
      update (·.unreserveBudget r decision)
      return .error e
  | .ok () =>
      update (·.commitBudget r decision)
      return .ok ()

/-- `runtime_->prefill`. -/
def callPrefill (r : RequestPtr) : Sched A (Result Logits) :=
  atomic (fun i s =>
    (i.prefill,
      match i.prefill with
      | .ok _ => s
      | .error _ => s.log (.prefillFailed r (s.requests r).kvCache)))

/-- Run prefill for a request. -/
def runPrefill [IKVCacheAllocator A] (r : RequestPtr) : Sched A (Result Unit) := do
  setState r .prefilling
  update (fun s => { s with requestsActive := s.requestsActive + 1 })
  match ← place r with
  | .error e =>
      update (fun s => { s with requestsActive := s.requestsActive - 1 })
      return .error e
  | .ok () =>
      match ← callPrefill r with
      | .error e =>
          freeResources r
          update (fun s => { s with requestsActive := s.requestsActive - 1 })
          return .error e
      | .ok logits =>
          update (fun s => s.modify r (fun q =>
            { q with
              prefillLogits := logits
              kvCache := { q.kvCache with currentLen := q.inputTokens.length } }))
          return .ok ()

/-- The body of the `process_queue` loop for one dequeued request. -/
def startRequest [IKVCacheAllocator A] (d : SchedulerSetup) (r : RequestPtr) :
    Sched A Unit := do
  let queueTimedOut ← atomic (fun i s =>
    (timedOut (s.requests r).timing.queueDeadline i.now, s))
  if queueTimedOut then failRequest r (.timeout "Request timed out waiting in queue")
  else
    let requestTimedOut ← atomic (fun i s =>
      (timedOut (s.requests r).timing.requestDeadline i.now, s))
    if requestTimedOut then failRequest r (.timeout "Request timed out")
    else
      match ← runPrefill r with
      | .error e => failRequest r e
      | .ok () =>
          setState r .decoding
          atomic (fun i s => ((),
            if d.config.decodeTimeoutSec > 0 then
              s.modify r (fun q => { q with timing := { q.timing with
                decodeDeadline := deadlineAfter i.now d.config.decodeTimeoutSec } })
            else s))
          update (fun s => { s with activeRequests := s.activeRequests ++ [r] })

/-! ## Decode -/

/-- Sample a token from the logits at hand. -/
def sampleToken : Sched A (Result Int) :=
  atomic (fun i s => (i.sample, s))

/-- `emit_token`: push a token event onto the request's queue. -/
def emitToken (r : RequestPtr) (tokenId : Int) (text : Bytes) : Sched A Unit :=
  update (·.pushEvent r (.token tokenId text))

/-- Check stop conditions and return whether to continue. -/
def checkStopAndContinue (d : SchedulerSetup) (r : RequestPtr) : Sched A Bool :=
  atomic (fun _ s =>
    let q := s.requests r
    let result := StopChecker.check d.tokenizer q.outputTokens q.outputText
      { stopSequences := q.stopSequences, maxTokens := q.maxTokens }
    if result.shouldStop then
      (false, s.modify r (fun q =>
        { q with
          finishReason := result.reason
          outputText :=
            if result.matchedStopSequence.isEmpty then q.outputText
            else StopChecker.trimStopSequence q.outputText result.matchedStopSequence }))
    else (true, s))

/-- The bytes that `output_text` is asked to reserve at the first token,
`max_tokens * 4` as an `int`.  The reserve shows in no field of the request, so
`appendToken` leaves it out; a size that no string has makes it throw. -/
def reserveSize (q : Request) : Nat := toSize (toInt32 (q.maxTokens * 4))

/-- What both branches of `run_decode_step` do with a sampled token. -/
def appendToken (d : SchedulerSetup) (r : RequestPtr) (token : Int) : Sched A Bool := do
  update (fun s => s.modify r (fun q =>
    { q with
      outputTokens := q.outputTokens ++ [token]
      kvCache := { q.kvCache with currentLen := sizeAdd q.kvCache.currentLen 1 } }))
  let text := d.tokenizer.tokenText token
  update (fun s => s.modify r (fun q => { q with outputText := q.outputText ++ text }))
  emitToken r token text
  checkStopAndContinue d r

/-- `runtime_->decode_step` on the last token. -/
def callDecodeStep (r : RequestPtr) : Sched A (Result Logits) :=
  atomic (fun i s =>
    let q := s.requests r
    (i.decode,
      s.log (.decodeCalled r (q.outputTokens.getLastD 0) (toInt32 q.kvCache.currentLen))))

/-- Take the prefill logits out of the request; an error if there are none. -/
def takePrefillLogits (r : RequestPtr) : Sched A (Result Logits) :=
  atomic (fun _ s =>
    let logits := (s.requests r).prefillLogits
    if logits.data.isEmpty then
      (.error (.internal "No prefill logits available for first token"), s)
    else
      (.ok logits, s.modify r (fun q => { q with prefillLogits := { q.prefillLogits with data := [] } })))

/-- The logits to sample from: those of the prefill for the first token, those
of a decode step afterwards. -/
def nextLogits (r : RequestPtr) : Sched A (Result Logits) := do
  let first ← read (fun s : Scheduler A => (s.requests r).outputTokens.isEmpty)
  if first then takePrefillLogits r else callDecodeStep r

/-- Run one decode step for a request. -/
def runDecodeStep (d : SchedulerSetup) (r : RequestPtr) : Sched A (Result Bool) := do
  let cancelled ← read (fun s : Scheduler A => (s.requests r).isCancelled)
  if cancelled then return .ok false
  else
    match ← nextLogits r with
    | .error e => return .error e
    | .ok _ =>
        match ← sampleToken with
        | .error e => return .error e
        | .ok token => return .ok (← appendToken d r token)

/-- The body of the decode loop for one active request. -/
def decodeRequest [IKVCacheAllocator A] (d : SchedulerSetup) (r : RequestPtr) :
    Sched A Unit := do
  let cancelled ← read (fun s : Scheduler A => (s.requests r).isCancelled)
  if cancelled then completeRequest r .stop
  else
    let requestTimedOut ← atomic (fun i s =>
      (timedOut (s.requests r).timing.requestDeadline i.now, s))
    if requestTimedOut then failRequest r (.timeout "Request timed out")
    else
      let decodeTimedOut ← atomic (fun i s =>
        (timedOut (s.requests r).timing.decodeDeadline i.now, s))
      if decodeTimedOut then failRequest r (.timeout "Decode phase timed out")
      else
        match ← runDecodeStep d r with
        | .error e => failRequest r e
        | .ok true => return ()
        | .ok false =>
            let reason ← read (fun s : Scheduler A => (s.requests r).finishReason)
            completeRequest r reason

/-! ## Threads -/

/-- Control points. -/
inductive Point where
  /-- where a thread begins; for the decode thread the head of `decode_loop` -/
  | start
  | processQueue
  | copyActive
  /-- the loop over the active requests, with those still to come -/
  | decodeEach (rest : List RequestPtr)
  /-- `stop` waiting for the decode thread -/
  | join
  /-- a call has returned -/
  | returned (result : Result Unit)
deriving DecidableEq

/-- The threads of a server process. -/
inductive ThreadId where
  | decode
  /-- the one submit call of a request -/
  | submit (r : RequestPtr)
  /-- calls of `cancel` with this id -/
  | cancel (id : String)
  /-- an HTTP thread cancelling the token of its request -/
  | disconnect (r : RequestPtr)
  /-- an HTTP thread popping the token queue of its request -/
  | pop (r : RequestPtr)
  | stop
deriving DecidableEq

/-- The decode thread. -/
def decodeLoop [IKVCacheAllocator A] (d : SchedulerSetup) : Point → Sched A Point
  | .start => do
      let running ← atomic (fun _ s =>
        (s.running, { s with decodeThreadExited := !s.running }))
      if running then return .processQueue
      else return .returned (.ok ())
  | .processQueue => do
      match ← atomic (fun _ s => s.dequeue d.config.maxActiveRequests) with
      | none => return .copyActive
      | some r =>
          startRequest d r
          return .processQueue
  | .copyActive => do
      let active ← read (·.activeRequests)
      if active.isEmpty then return .start
      else return .decodeEach active
  | .decodeEach [] => return .start
  | .decodeEach (r :: rest) => do
      decodeRequest d r
      return .decodeEach rest
  | l => return l

/-- `stop`: lower the flag, wait for the decode thread, cancel what is left. -/
def stop : Point → Sched A Point
  | .start => do
      let running ← atomic (fun _ s => (s.running, { s with running := false }))
      if running then return .join
      else return .returned (.ok ())
  | .join => do
      let exited ← read (·.decodeThreadExited)
      if exited then
        update (·.registryCancelAll)
        return .returned (.ok ())
      else return .join
  | l => return l

/-- The program found at each control point of each thread. -/
def code [IKVCacheAllocator A] (d : SchedulerSetup) : ThreadId → Point → Sched A Point
  | .decode, l => decodeLoop d l
  | .submit r, .start => do
      let result ← submit d r
      return .returned result
  | .submit _, l => return l
  | .cancel id, _ => do
      update (·.registryCancel id)
      return .start
  | .disconnect r, _ => do
      update (·.cancelToken r)
      return .start
  | .pop r, _ => do
      update (·.popEvent r)
      return .start
  | .stop, l => stop l

/-- A server process. -/
abbrev System (A : Type) := Pool ThreadId Answer (Scheduler A) Point

/-- The process after `start`, before anything was submitted. -/
def System.initial (s : Scheduler A) : System A :=
  { state := s, threads := fun _ => .ret .start }

end Scheduler

end Qwen
