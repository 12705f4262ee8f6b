import Mathlib.Data.Int.Order.Basic
import WinInference.Api.Answer
import WinInference.Api.Chunks
import WinInference.Scheduler.Turns

/-!
# The body of an answer

`to_json` of `api/types.cpp` for a response and for an error, and what
`chat_completions` makes of them (`api/routes.cpp`).  A client that parses the
body finds what the handler answered, and with that how its request ended.

`answer?` is the reader of the client.  `answer?_toJson` reads a response back
whose counters fit into 32 bits, `error?_reparsed` an error, and `read_reply`
puts both together.  `excused_run` follows the handler through every
interleaving with the server: as long as there is no answer, there is a reason
for it.
-/

namespace Qwen

open Concurrency Json Scheduler

namespace Wire

variable {D : Type}

/-- Usage statistics. -/
structure Usage where
  promptTokens : Int32 := 0
  completionTokens : Int32 := 0
  totalTokens : Int32 := 0

/-- Non-streaming response choice. -/
structure Choice (D : Type) where
  index : Int32 := 0
  message : Message D
  finishReason : FinishReason := .none

/-- Non-streaming chat completion response. -/
structure ChatCompletionResponse (D : Type) where
  id : Bytes
  object : Bytes := literal "chat.completion"
  created : Int64 := 0
  model : Bytes
  choices : List (Choice D)
  usage : Usage := {}

/-- `to_json(usage)`: the three counters as integers. -/
def Usage.toJson (u : Usage) : Value D :=
  .object
    (insert (literal "total_tokens") (.numberInteger u.totalTokens.toInt64)
      (insert (literal "completion_tokens") (.numberInteger u.completionTokens.toInt64)
        (insert (literal "prompt_tokens") (.numberInteger u.promptTokens.toInt64) [])))

/-- `to_json(choice)`: an unset finish reason is written as null. -/
def Choice.toJson (c : Choice D) : Value D :=
  .object
    (insert (literal "finish_reason")
        (if c.finishReason ≠ .none then .string (finishReasonToString c.finishReason) else .null)
      (insert (literal "message") c.message.toJson
        (insert (literal "index") (.numberInteger c.index.toInt64) [])))

/-- `to_json(response)`: the choices are an array, the usage an object. -/
def ChatCompletionResponse.toJson (r : ChatCompletionResponse D) : Value D :=
  .object
    (insert (literal "usage") r.usage.toJson
      (insert (literal "choices") (.array (r.choices.map Choice.toJson))
        (insert (literal "model") (.string r.model)
          (insert (literal "created") (.numberInteger r.created)
            (insert (literal "object") (.string r.object)
              (insert (literal "id") (.string r.id) []))))))

/-- `error_to_json`: the fields of the error under the key `error`. -/
def errorToJson (e : ErrorResponse) : Value D :=
  .object (insert (literal "error")
    (.object
      (insertIf (literal "param") (e.param.map fun param => .string (literal param))
        (insert (literal "message") (.string (literal e.message))
          (insert (literal "code") (.string (literal e.code))
            (insert (literal "type") (.string (literal e.type)) []))))) [])

section Find

/-- The counters are found again under their keys. -/
theorem Usage.find (u : Usage) :
    (u.toJson : Value D).find (literal "prompt_tokens") =
        some (.numberInteger u.promptTokens.toInt64) ∧
      (u.toJson : Value D).find (literal "completion_tokens") =
        some (.numberInteger u.completionTokens.toInt64) ∧
      (u.toJson : Value D).find (literal "total_tokens") =
        some (.numberInteger u.totalTokens.toInt64) := by
  unfold Usage.toJson Value.find
  dsimp only
  refine ⟨?_, ?_, ?_⟩ <;>
    simp (disch := decide) only [lookup_insert_ne, lookup_insert_self]

/-- The content of a message is found under its key. -/
theorem Message.find_content (m : Message D) :
    m.toJson.find (literal "content") = some (.string m.content) := by
  unfold Message.toJson Value.find
  dsimp only
  simp (disch := decide) only [lookup_insertIf_ne, lookup_insert_self]

/-- The message and the finish reason of a choice are found under their keys. -/
theorem Choice.find (c : Choice D) :
    c.toJson.find (literal "message") = some c.message.toJson ∧
      c.toJson.find (literal "finish_reason") =
        some (if c.finishReason ≠ .none then .string (finishReasonToString c.finishReason)
          else .null) := by
  unfold Choice.toJson Value.find
  dsimp only
  constructor <;> simp (disch := decide) only [lookup_insert_ne, lookup_insert_self]

/-- A response body has choices and usage, and no error. -/
theorem ChatCompletionResponse.find (r : ChatCompletionResponse D) :
    r.toJson.find (literal "error") = none ∧
      r.toJson.find (literal "choices") = some (.array (r.choices.map Choice.toJson)) ∧
      r.toJson.find (literal "usage") = some r.usage.toJson := by
  unfold ChatCompletionResponse.toJson Value.find
  dsimp only
  refine ⟨?_, ?_, ?_⟩ <;>
    simp (disch := decide) only [lookup_insert_ne, lookup_insert_self, List.lookup_nil]

/-- An error body carries the type, the message, the code and the parameter of the error. -/
theorem errorToJson_find (e : ErrorResponse) :
    ∃ j : Value D, (errorToJson e).find (literal "error") = some j ∧
      j.find (literal "type") = some (.string (literal e.type)) ∧
      j.find (literal "code") = some (.string (literal e.code)) ∧
      j.find (literal "message") = some (.string (literal e.message)) ∧
      j.find (literal "param") = e.param.map fun param => .string (literal param) := by
  refine ⟨_, lookup_insert_self, ?_⟩
  unfold Value.find
  dsimp only
  refine ⟨?_, ?_, ?_, lookup_insertIf_self _ ?_⟩ <;>
    simp (disch := decide) only [lookup_insertIf_ne, lookup_insert_ne, lookup_insert_self,
      List.lookup_nil]

end Find

end Wire

/-! ## The server's side -/

/-- The status of an answer. -/
def replyStatus : Except ErrorResponse ChatCompletionResponse → Nat
  | .ok _ => 200
  | .error e => e.status

/-- The response that `chat_completions` makes of a result at `created`. -/
def ChatCompletionResponse.toWire {D : Type} (info : StreamInfo) (created : Int64)
    (answer : ChatCompletionResponse) : Wire.ChatCompletionResponse D where
  id := literal info.completionId
  created := created
  model := literal info.modelName
  choices :=
    [{ message := { role := .assistant, content := answer.content }
       finishReason := answer.finishReason }]
  usage :=
    { promptTokens := Int32.ofInt answer.promptTokens
      completionTokens := Int32.ofInt answer.completionTokens
      totalTokens := Int32.ofInt answer.totalTokens }

/-- The JSON of an answer that was made at `created`. -/
def replyJson {D : Type} (info : StreamInfo) (created : Int64) :
    Except ErrorResponse ChatCompletionResponse → Value D
  | .ok answer => (answer.toWire info created).toJson
  | .error e => Wire.errorToJson e

/-! ## The client's side -/

namespace ReplyClient

variable {D : Type}

/-- The integer a client reads, signed or unsigned. -/
def int? : Option (Value D) → Option Int
  | some (.numberInteger n) => some n.toInt
  | some (.numberUnsigned n) => some n.toNat
  | _ => none

/-- The finish reason a client reads, with null for none. -/
def reason? : Option (Value D) → Option FinishReason
  | some .null => some .none
  | some (.string s) => StreamClient.finishReason? s
  | _ => none

/-- The error a client reads from a body and its status. -/
def error? (status : Nat) (j : Value D) : Option ErrorResponse := do
  let type ← StreamClient.text? (j.find (literal "type"))
  let code ← StreamClient.text? (j.find (literal "code"))
  let message ← StreamClient.text? (j.find (literal "message"))
  let param := StreamClient.text? (j.find (literal "param"))
  return { status := status, type := type, code := code, message := message, param := param }

/-- The text a client reads from a content field. -/
def content? : Option (Value D) → Option Bytes
  | some (.string s) => some s
  | _ => none

/-- The first of the choices. -/
def choice? : Option (Value D) → Option (Value D)
  | some (.array choices) => choices.head?
  | _ => none

/-- The response a client reads from a body. -/
def answer? (j : Value D) : Option ChatCompletionResponse := do
  let choice ← choice? (j.find (literal "choices"))
  let message ← choice.find (literal "message")
  let content ← content? (message.find (literal "content"))
  let reason ← reason? (choice.find (literal "finish_reason"))
  let usage ← j.find (literal "usage")
  let promptTokens ← int? (usage.find (literal "prompt_tokens"))
  let completionTokens ← int? (usage.find (literal "completion_tokens"))
  let totalTokens ← int? (usage.find (literal "total_tokens"))
  return { content := content, finishReason := reason, promptTokens := promptTokens
           completionTokens := completionTokens, totalTokens := totalTokens }

/-- What a client makes of a status and a body. -/
def read (lib : JsonLibrary D) (status : Nat) (body : Bytes) :
    Option (Except ErrorResponse ChatCompletionResponse) := do
  let j ← lib.parse body
  match j.find (literal "error") with
  | some e => (error? status e).map .error
  | none => (answer? j).map .ok

end ReplyClient

/-! ## An answer is read as it was written -/

/-- The numbers of an answer are `int32_t`. -/
def ChatCompletionResponse.InInt32 (answer : ChatCompletionResponse) : Prop :=
  ∀ n ∈ [answer.promptTokens, answer.completionTokens, answer.totalTokens],
    -2 ^ 31 ≤ n ∧ n < 2 ^ 31

section ReadBack

open ReplyClient

variable {D : Type} {lib : JsonLibrary D} {info : StreamInfo} {created : Int64}

/-- A 32-bit counter comes back from the wire as it was written. -/
theorem int?_reparsed {n : Int} (hn : -2 ^ 31 ≤ n ∧ n < 2 ^ 31) :
    int? (some (Value.numberInteger (Int32.ofInt n).toInt64 : Value D).reparsed) = some n := by
  have htoInt : (Int32.ofInt n).toInt64.toInt = n := by
    rw [Int32.toInt_toInt64]
    exact Int32.toInt_ofInt_of_le (by omega) (by omega)
  rw [Value.reparsed]
  split
  next => exact congrArg some htoInt
  next hnot =>
    have hpos : (0 : Int64) ≤ (Int32.ofInt n).toInt64 := Int64.not_lt.mp hnot
    have hnonneg : 0 ≤ n := by
      rw [Int64.le_iff_toInt_le, htoInt] at hpos
      exact hpos
    have hnat : (Int32.ofInt n).toInt64.toUInt64.toNat = n.toNat := by
      rw [Int64.toNat_toUInt64_of_le hpos, ← Int64.toNat_toInt, htoInt]
    show some ((Int32.ofInt n).toInt64.toUInt64.toNat : Int) = some n
    rw [hnat, Int.toNat_of_nonneg hnonneg]

/-- A finish reason comes back from the wire as it was written. -/
theorem reason?_reparsed (reason : FinishReason) :
    reason? (some (if reason ≠ .none then .string (finishReasonToString reason)
      else .null : Value D).reparsed) = some reason := by
  by_cases hnone : reason = .none
  · rw [if_neg (not_not.mpr hnone), Value.reparsed, hnone]
    rfl
  · rw [if_pos hnone, Value.reparsed]
    exact finishReason?_toString reason

/-- An error comes back from the wire as it was written. -/
theorem error?_reparsed (e : ErrorResponse) :
    ∃ j : Value D, (Wire.errorToJson e).reparsed.find (literal "error") = some j ∧
      error? e.status j = some e := by
  obtain ⟨j, herror, htype, hcode, hmessage, hparam⟩ := Wire.errorToJson_find (D := D) e
  refine ⟨j.reparsed, by rw [Value.find_reparsed, herror]; rfl, ?_⟩
  have hread : StreamClient.text? (j.reparsed.find (literal "param")) = e.param := by
    rw [Value.find_reparsed, hparam]
    cases e.param with
    | none => rfl
    | some param =>
        simp only [Option.map_some, reparsed_string]
        exact text?_literal param
  unfold error?
  rw [hread]
  simp only [Value.find_reparsed, htype, hcode, hmessage, Option.map_some, reparsed_string,
    text?_literal]
  rfl

/-- A response with one choice. -/
theorem answer?_toJson {r : Wire.ChatCompletionResponse D} {c : Wire.Choice D}
    (hchoices : r.choices = [c]) {prompt completion total : Int}
    (hprompt : int? (some (Value.numberInteger r.usage.promptTokens.toInt64 : Value D).reparsed) =
      some prompt)
    (hcompletion : int? (some
      (Value.numberInteger r.usage.completionTokens.toInt64 : Value D).reparsed) = some completion)
    (htotal : int? (some (Value.numberInteger r.usage.totalTokens.toInt64 : Value D).reparsed) =
      some total) :
    answer? r.toJson.reparsed = some
      { content := c.message.content, finishReason := c.finishReason, promptTokens := prompt
        completionTokens := completion, totalTokens := total } := by
  obtain ⟨-, hfound, husage⟩ := r.find
  obtain ⟨hmessage, hreason⟩ := c.find
  obtain ⟨hfirst, hsecond, hthird⟩ := Wire.Usage.find (D := D) r.usage
  have hchoice : choice? (r.toJson.reparsed.find (literal "choices")) = some c.toJson.reparsed := by
    rw [Value.find_reparsed, hfound, hchoices]
    simp only [Option.map_some, Value.reparsed, reparsedElements_eq]
    rfl
  have hcontent : content? (c.message.toJson.reparsed.find (literal "content")) =
      some c.message.content := by
    rw [Value.find_reparsed, c.message.find_content]
    simp only [Option.map_some, reparsed_string]
    rfl
  unfold answer?
  rw [hchoice]
  simp only [Option.bind_eq_bind, Option.bind_some, Value.find_reparsed, hmessage, hreason,
    husage, Option.map_some]
  simp only [Value.find_reparsed] at hcontent
  simp only [hcontent, reason?_reparsed, hfirst, hsecond, hthird, Option.map_some, hprompt,
    hcompletion, htotal, Option.bind_some]
  rfl

/-- **An answer is read as it was written.** -/
theorem read_reply {response : Except ErrorResponse ChatCompletionResponse}
    (hrange : ∀ answer, response = .ok answer → answer.InInt32)
    (hparse : lib.parse (lib.dump (replyJson info created response)) =
      some (replyJson info created response).reparsed) :
    ReplyClient.read lib (replyStatus response) (lib.dump (replyJson info created response)) =
      some response := by
  unfold ReplyClient.read
  rw [hparse]
  simp only [Option.bind_eq_bind, Option.bind_some]
  cases response with
  | error e =>
      obtain ⟨j, herror, hread⟩ := error?_reparsed (D := D) e
      unfold replyJson replyStatus
      dsimp only
      rw [herror]
      simp only [hread, Option.map_some]
  | ok answer =>
      have hranges : ∀ n ∈ [answer.promptTokens, answer.completionTokens, answer.totalTokens],
          int? (some (Value.numberInteger (Int32.ofInt n).toInt64 : Value D).reparsed) = some n :=
        fun n hn => int?_reparsed (hrange answer rfl n hn)
      have herror : (replyJson (D := D) info created (.ok answer)).reparsed.find
          (literal "error") = none := by
        rw [Value.find_reparsed]
        unfold replyJson
        rw [(Wire.ChatCompletionResponse.find _).1]
        rfl
      have hread : answer? (replyJson (D := D) info created (.ok answer)).reparsed =
          some answer := by
        have hprompt := hranges answer.promptTokens (by simp)
        have hcompletion := hranges answer.completionTokens (by simp)
        have htotal := hranges answer.totalTokens (by simp)
        exact answer?_toJson (r := answer.toWire info created) rfl hprompt hcompletion htotal
      rw [herror]
      simp only [hread, Option.map_some]

end ReadBack

/-! ## Answers without a result -/

/-- The error of a handler that has waited too long. -/
def lateError : Error := .timeout "Request timed out"

/-- What a handler says that does not answer with the result. -/
def Excused {A : Type} (r : RequestPtr) (w : System A) : ReplyPoint → Prop
  | .leaving .refused _ => False
  | .leaving .timedOut errorResult =>
      errorResult = some lateError ∧ (w.state.requests r).cancelToken ≠ some false
  | .replied .refused response =>
      ∃ e, w.threads (.submit r) = .ret (.returned (.error e)) ∧
        response = .error (.ofError 503 e)
  | .replied .timedOut response =>
      response = .error (.ofError 504 lateError) ∧
        (w.state.requests r).cancelToken ≠ some false
  | point => point.exit? = some .refused ∨ point.exit? = some .timedOut → False

/-- How a request ended for the handler, with what it then answers. -/
inductive Told {A : Type} (r : RequestPtr) (w : System A) :
    WaitExit → Except ErrorResponse ChatCompletionResponse → Prop
  | result {exit : WaitExit} {response : Except ErrorResponse ChatCompletionResponse}
      (hlearnt : exit.learnt = true) (hagrees : Agrees (w.state.requests r) response) :
      Told r w exit response
  | refused {e : Error} (hsubmit : w.threads (.submit r) = .ret (.returned (.error e)))
      (hpushed : r ∉ w.state.pushed) : Told r w .refused (.error (.ofError 503 e))
  | late (hcancelled : (w.state.requests r).cancelToken ≠ some false) :
      Told r w .timedOut (.error (.ofError 504 lateError))

section Excuses

variable {A : Type} {r : RequestPtr} {w w' : System A} {point : ReplyPoint}

/-- A handler that goes on, or that has learnt the result, needs no excuse. -/
theorem Excused.of_learnt (h : ∀ exit, point.exit? = some exit → exit.learnt = true) :
    Excused r w point := by
  have hnot : ¬ (point.exit? = some .refused ∨ point.exit? = some .timedOut) := by
    rintro (hexit | hexit) <;> exact absurd (h _ hexit) (by decide)
  cases point with
  | leaving exit errorResult | replied exit response =>
      cases exit with
      | refused => exact absurd (.inl rfl) hnot
      | timedOut => exact absurd (.inr rfl) hnot
      | event | polled => exact hnot
  | _ => exact hnot

/-- An excuse for an unfinished answer stays one while the waiting handler does not move. -/
theorem Excused.stays (h : Excused r w point)
    (hsubmit : ∀ e, w.threads (.submit r) = .ret (.returned (.error e)) →
      w'.threads (.submit r) = .ret (.returned (.error e)))
    (hcancel : (w.state.requests r).cancelToken ≠ some false →
      (w'.state.requests r).cancelToken ≠ some false) : Excused r w' point := by
  cases point with
  | leaving exit errorResult =>
      cases exit with
      | timedOut => exact ⟨h.1, hcancel h.2⟩
      | refused | event | polled => exact h
  | replied exit response =>
      cases exit with
      | timedOut => exact ⟨h.1, hcancel h.2⟩
      | refused =>
          obtain ⟨e, hthread, hresponse⟩ := h
          exact ⟨e, hsubmit e hthread, hresponse⟩
      | event | polled => exact h
  | _ => exact h

/-- One step of the handler. -/
theorem replyStep_excused (h : Excused r w point) (dumps : Bytes → Bool)
    (responseTimeoutSec : Nat) (i : Answer)
    (hcancel : (Handlers.replyStep dumps responseTimeoutSec r i () w point).1 = .cancel →
      (w'.state.requests r).cancelToken ≠ some false)
    (hsubmit : ∀ e, w.threads (.submit r) = .ret (.returned (.error e)) →
      w'.threads (.submit r) = .ret (.returned (.error e)))
    (hrecalls : (w.state.requests r).cancelToken ≠ some false →
      (w'.state.requests r).cancelToken ≠ some false) :
    Excused r w' (Handlers.replyStep dumps responseTimeoutSec r i () w point).2 := by
  cases point with
  | submitting =>
      unfold Handlers.replyStep
      dsimp only
      split
      next e hthread => exact ⟨e, hsubmit e hthread, rfl⟩
      next => exact .of_learnt (by simp [ReplyPoint.exit?, WaitExit.learnt])
      next => exact .of_learnt (by simp [ReplyPoint.exit?, WaitExit.learnt])
  | popping startTime =>
      unfold Handlers.replyStep
      dsimp only
      split <;> exact .of_learnt (by simp [ReplyPoint.exit?, WaitExit.learnt])
  | polling startTime =>
      unfold Handlers.replyStep
      dsimp only
      split <;> exact .of_learnt (by simp [ReplyPoint.exit?, WaitExit.learnt])
  | timing startTime =>
      cases hlate : timedOut (deadlineAfter startTime responseTimeoutSec) i.now with
      | true =>
          simp only [Handlers.replyStep, hlate, if_true] at hcancel ⊢
          exact ⟨rfl, hcancel trivial⟩
      | false =>
          simp only [Handlers.replyStep, hlate]
          exact .of_learnt (by simp [ReplyPoint.exit?, WaitExit.learnt])
  | leaving exit errorResult =>
      cases exit with
      | refused => exact h.elim
      | timedOut =>
          obtain ⟨rfl, hgone⟩ := h
          exact ⟨rfl, hrecalls hgone⟩
      | event | polled =>
          unfold Handlers.replyStep
          dsimp only
          split <;> exact .of_learnt (by simp [ReplyPoint.exit?, WaitExit.learnt])
  | readText exit | readReason exit =>
      exact h
  | readUsage exit content reason =>
      unfold Handlers.replyStep
      dsimp only
      split
      · cases exit with
        | refused | timedOut => exact (h (by simp [ReplyPoint.exit?])).elim
        | event | polled => exact .of_learnt (by simp [ReplyPoint.exit?, WaitExit.learnt])
      · exact h
  | replied exit response => exact h.stays hsubmit hrecalls
  | threw exit => exact h

end Excuses

section Runs

variable {A : Type} [IKVCacheAllocator A] {a : A} {g : Option GPURouter}
  {requests : RequestPtr → Request} {r : RequestPtr} {d : SchedulerSetup} {dumps : Bytes → Bool}

/-- What the server goes through leaves an excuse true. -/
theorem excused_leads {w w' : System A} {s : Scheduler A}
    (hw : Exchange.Leads d (System.initial s) w) (hleads : Exchange.Leads d w w') :
    (∀ e, w.threads (.submit r) = .ret (.returned (.error e)) →
      w'.threads (.submit r) = .ret (.returned (.error e))) ∧
    ((w.state.requests r).cancelToken ≠ some false →
      (w'.state.requests r).cancelToken ≠ some false) := by
  obtain ⟨before, rfl⟩ := hw
  obtain ⟨after, rfl⟩ := hleads
  refine ⟨fun e hthread => Pool.run_resting hthread rfl after, fun hgone => ?_⟩
  rw [← Pool.run_append]
  exact Pool.run_preserves (J := fun s => (s.requests r).cancelToken ≠ some false)
    (code_recalls d r) (fun _ _ hact hs => hact.ne_false hs) before after hgone

/-- In every run, a handler without its answer has an excuse for it. -/
theorem excused_run (s : Scheduler A) (responseTimeoutSec : Nat) (schedule : List (Turn Unit)) :
    let x := (Exchange.initial s .submitting).run d r
      (Handlers.replyStep dumps responseTimeoutSec r) schedule
    Exchange.Leads d (System.initial s) x.system ∧ Exchange.Poised r x.system ∧
      Excused r x.system x.handler := by
  induction schedule using List.reverseRecOn with
  | nil =>
      have hgoing : ∀ exit, ReplyPoint.submitting.exit? = some exit → exit.learnt = true := by
        simp [ReplyPoint.exit?]
      exact ⟨Exchange.Leads.refl _, ⟨rfl, rfl⟩, Excused.of_learnt hgoing⟩
  | append_singleton rest turn ih =>
      rw [Exchange.run_concat]
      obtain ⟨hleads, hpoised, hexcused⟩ := ih
      obtain ⟨hnext, hpoised'⟩ := Exchange.leads_step (d := d)
        (Handlers.replyStep dumps responseTimeoutSec r) hpoised turn
      obtain ⟨hsubmit, hrecalls⟩ := excused_leads (r := r) hleads hnext
      refine ⟨hleads.trans hnext, hpoised', ?_⟩
      cases turn with
      | server t i =>
          rw [Exchange.step_server_handler]
          exact hexcused.stays hsubmit hrecalls
      | handler i input =>
          refine replyStep_excused hexcused dumps responseTimeoutSec i (fun hcancel => ?_)
            hsubmit hrecalls
          show ((Exchange.perform d r i _ (Handlers.replyStep dumps responseTimeoutSec r i () _ _).1
            ).state.requests r).cancelToken ≠ _
          rw [hcancel]
          show (((Scheduler.cancelToken _ r).requests r).cancelToken ≠ some false)
          rw [cancelToken, requests_modify_self]
          cases (Scheduler.requests _ r).cancelToken <;> simp

omit [IKVCacheAllocator A] in
/-- The counters of a response the handler gives fit into 32 bits. -/
theorem Told.inInt32 {w : System A} {exit : WaitExit}
    {response : Except ErrorResponse ChatCompletionResponse} (h : Told r w exit response) :
    ∀ answer, response = .ok answer → answer.InInt32 := by
  intro answer hanswer
  subst hanswer
  have hsigned (x : Int) : -2 ^ 31 ≤ toInt32 x ∧ toInt32 x < 2 ^ 31 := by
    have hrange := Wrapping.toSigned_range (w := 32) (by decide) x
    rw [toInt32]
    omega
  cases h with
  | result hlearnt hagrees =>
      cases hagrees with
      | completed hstate =>
          unfold ChatCompletionResponse.InInt32
          unfold Request.totalTokens Request.completionTokens Request.promptTokens
          rw [List.forall_mem_cons, List.forall_mem_cons, List.forall_mem_singleton]
          dsimp only
          exact ⟨hsigned _, hsigned _, hsigned _⟩

/-- **The answer as it is read.**  The server may do what it likes beside the
handler.  Once the handler has answered, a client that parses the body finds
exactly that answer, and it tells how the request ended: with the result of the
request, or that it was never queued, or that it was cancelled. -/
theorem reply_told {D : Type} (d : SchedulerSetup) (dumps : Bytes → Bool)
    (hfresh : Fresh requests) (h : Unstarted (requests r)) (herror : (requests r).error = none)
    (responseTimeoutSec : Nat) (schedule : List (Turn Unit)) (lib : JsonLibrary D)
    (info : StreamInfo) (created : Int64)
    {exit : WaitExit} {response : Except ErrorResponse ChatCompletionResponse} :
    let x := (Exchange.initial (create a g requests) .submitting).run d r
      (Handlers.replyStep dumps responseTimeoutSec r) schedule
    let body := lib.dump (replyJson info created response)
    x.handler = .replied exit response →
    lib.parse body = some (replyJson info created response).reparsed →
      ReplyClient.read lib (replyStatus response) body = some response ∧
        Told r x.system exit response := by
  intro x body hreplied hparse
  have hx : x.Fitting d dumps r (create a g requests) :=
    Exchange.fitting_run hfresh h herror responseTimeoutSec schedule
  have hexcused : Excused r x.system x.handler :=
    (excused_run (create a g requests) responseTimeoutSec schedule).2.2
  have hfits := hx.fits
  rw [hreplied] at hfits hexcused
  have htold : Told r x.system exit response := by
    cases exit with
    | event | polled => exact .result rfl (hfits.1 rfl).1
    | timedOut =>
        obtain ⟨rfl, hcancelled⟩ := hexcused
        exact .late hcancelled
    | refused =>
        obtain ⟨e, hsubmit, rfl⟩ := hexcused
        obtain ⟨moves, hmoves⟩ := hx.leads
        have harrived := arrival_run d a g requests moves r _ (hmoves ▸ hsubmit)
        refine .refused hsubmit ?_
        rw [hmoves]
        exact mt harrived.1.mp (by simp)
  exact ⟨read_reply htold.inInt32 hparse, htold⟩

end Runs

/-! ### An answer of one letter -/

/-- The answer to the request of one letter. -/
def sampleReply : ChatCompletionResponse where
  content := [120]
  finishReason := .length
  promptTokens := 1
  completionTokens := 1
  totalTokens := 2

/-- The identifiers of the example response. -/
def sampleReplyInfo : StreamInfo := { completionId := "r", modelName := "m" }

/-- What the library prints for this answer. -/
def sampleReplyText : Bytes :=
  literal ("\x7b\"choices\":[\x7b\"finish_reason\":\"length\",\"index\":0," ++
    "\"message\":\x7b\"content\":\"x\",\"role\":\"assistant\"\x7d\x7d],\"created\":0," ++
    "\"id\":\"r\",\"model\":\"m\",\"object\":\"chat.completion\"," ++
    "\"usage\":\x7b\"completion_tokens\":1,\"prompt_tokens\":1,\"total_tokens\":2\x7d\x7d")

/-- The library on this answer. -/
def sampleReplyLibrary : JsonLibrary Rat where
  dump j := if ReplyClient.answer? j.reparsed = some sampleReply then sampleReplyText else []
  parse text :=
    if text = sampleReplyText then some (replyJson sampleReplyInfo 0 (.ok sampleReply)).reparsed
    else none

/-- A request with a short answer, read back by the client from the body it was sent. -/
theorem reply_told_sample :
    let x := answeredExchange [120] 8
    ReplyClient.read sampleReplyLibrary 200 sampleReplyText = some (.ok sampleReply) ∧
      Told 0 x.system .event (.ok sampleReply) := by
  intro x
  have hunstarted : Unstarted (numbered streamedRequest 0) := by
    refine ⟨rfl, rfl, rfl, rfl, rfl, fun queue hqueue => ?_⟩
    cases hqueue
    exact ⟨rfl, rfl⟩
  have hreplied : x.handler = .replied .event (.ok sampleReply) := by
    have hanswer : x.handler.answer? = some sampleReply := by decide +kernel
    obtain ⟨exit, hreplied⟩ := ReplyPoint.replied_of_answer hanswer
    have hexit : x.handler.exit? = some .event := by decide +kernel
    rw [hreplied] at hexit
    cases hexit
    exact hreplied
  have hdump : sampleReplyLibrary.dump (replyJson sampleReplyInfo 0 (.ok sampleReply)) =
      sampleReplyText := by
    decide +kernel
  have hparse : sampleReplyLibrary.parse (sampleReplyLibrary.dump
      (replyJson sampleReplyInfo 0 (.ok sampleReply))) =
      some (replyJson sampleReplyInfo 0 (.ok sampleReply)).reparsed := by
    rw [hdump]
    simp only [sampleReplyLibrary, if_true]
  have htold := reply_told (textSetup [120]) isUtf8 (numbered_fresh rfl) hunstarted rfl 300
    (answeredTurns 8) sampleReplyLibrary sampleReplyInfo 0 hreplied hparse
  rw [hdump] at htold
  exact htold

end Qwen
