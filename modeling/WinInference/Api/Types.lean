import WinInference.Json.Value
import WinInference.Tokenizer.PromptBuilder

/-!
# Requests as JSON

`to_json` and `from_json` of `api/types.cpp` for a message, a tool and a chat
completion request, with all fields of these.  Strings are byte strings, and `D`
is the type of doubles.  What `from_json` is given besides the value is the
object it reads into.
-/

namespace Qwen

open Json

/-- An unknown role is a user. -/
def stringToRole (s : Bytes) : Role :=
  if s = literal "system" then .system
  else if s = literal "assistant" then .assistant
  else if s = literal "tool" then .tool
  else .user

namespace Wire

variable {D : Type}

/-- Chat message. -/
structure Message (D : Type) where
  role : Role
  content : Bytes := []
  /-- for tool messages -/
  name : Option Bytes := none
  /-- passthrough -/
  toolCalls : Option (Value D) := none
  /-- for tool responses -/
  toolCallId : Option Bytes := none

/-- Tool definition (passthrough). -/
structure Tool (D : Type) where
  type : Bytes
  function : Value D

/-- Chat completion request. -/
structure ChatCompletionRequest (D : Type) where
  model : Bytes := []
  messages : List (Message D) := []
  temperature : Option D := none
  topP : Option D := none
  maxTokens : Option Int32 := none
  stop : Option (List Bytes) := none
  stream : Bool := false
  seed : Option Int64 := none
  tools : Option (List (Tool D)) := none
  presencePenalty : Option D := none
  frequencyPenalty : Option D := none
  user : Option Bytes := none

/-! ## Writing -/

/-- `to_json(message)`. -/
def Message.toJson (m : Message D) : Value D :=
  .object
    (insertIf (literal "tool_call_id") (m.toolCallId.map .string)
      (insertIf (literal "tool_calls") m.toolCalls
        (insertIf (literal "name") (m.name.map .string)
          (insert (literal "content") (.string m.content)
            (insert (literal "role") (.string (roleToString m.role)) [])))))

/-- `to_json(request)`: the options that are unset, and the tools, are left out. -/
def ChatCompletionRequest.toJson (r : ChatCompletionRequest D) : Value D :=
  .object
    (insertIf (literal "seed") (r.seed.map .numberInteger)
      (insertIf (literal "stop") (r.stop.map fun stop => .array (stop.map .string))
        (insertIf (literal "max_tokens") (r.maxTokens.map fun n => .numberInteger n.toInt64)
          (insertIf (literal "top_p") (r.topP.map .numberFloat)
            (insertIf (literal "temperature") (r.temperature.map .numberFloat)
              (insert (literal "stream") (.boolean r.stream)
                (insert (literal "messages") (.array (r.messages.map Message.toJson))
                  (insert (literal "model") (.string r.model) []))))))))

/-! ## Reading -/

/-- A message that is read into a new object. -/
def Message.fromJson (j : Value D) : Read (Message D) := do
  let role ← (← j.at_ (literal "role")).getString
  let content ← j.valueOr Value.getString (literal "content") []
  let name ← j.getIf Value.getString (literal "name")
  let toolCalls ← j.getIf .ok (literal "tool_calls")
  let toolCallId ← j.getIf Value.getString (literal "tool_call_id")
  return { role := stringToRole role, content := content, name := name, toolCalls := toolCalls
           toolCallId := toolCallId }

/-- `from_json` of a tool. -/
def Tool.fromJson (j : Value D) : Read (Tool D) := do
  let type ← (← j.at_ (literal "type")).getString
  let function ← j.at_ (literal "function")
  return { type := type, function := function }

/-- The stop sequences; a value of another kind is passed over. -/
def getStop (j : Value D) (previous : Option (List Bytes)) : Read (Option (List Bytes)) :=
  match j.find (literal "stop") with
  | none => .ok previous
  | some v =>
      if v.isString then (v.getString).map fun s => some [s]
      else if v.isArray then (v.getVector Value.getString).map some
      else .ok previous

/-- The tools of a request body, or those already there. -/
def getTools (j : Value D) (previous : Option (List (Tool D))) : Read (Option (List (Tool D))) :=
  match j.find (literal "tools") with
  | none => .ok previous
  | some v => (v.items.mapM Tool.fromJson).map some

/-- `from_json` of a request body, into a request with its defaults. -/
def ChatCompletionRequest.fromJson (c : Conversions D) (j : Value D)
    (r : ChatCompletionRequest D) : Read (ChatCompletionRequest D) := do
  let model ← (← j.at_ (literal "model")).getString
  let messages ← (← j.at_ (literal "messages")).items.mapM Message.fromJson
  let temperature ← j.getIf (Value.getDouble c) (literal "temperature")
  let topP ← j.getIf (Value.getDouble c) (literal "top_p")
  let maxTokens ← j.getIf (Value.getInt32 c) (literal "max_tokens")
  let stop ← getStop j r.stop
  let stream ← j.valueOr Value.getBoolean (literal "stream") false
  let seed ← j.getIf (Value.getInt64 c) (literal "seed")
  let tools ← getTools j r.tools
  let presencePenalty ← j.getIf (Value.getDouble c) (literal "presence_penalty")
  let frequencyPenalty ← j.getIf (Value.getDouble c) (literal "frequency_penalty")
  let user ← j.getIf Value.getString (literal "user")
  return { model := model, messages := messages, temperature := temperature, topP := topP
           maxTokens := maxTokens, stop := stop, stream := stream, seed := seed, tools := tools
           presencePenalty := presencePenalty, frequencyPenalty := frequencyPenalty, user := user }

/-! ## Reading back what was written -/

/-- Every role is read back from its name. -/
theorem stringToRole_roleToString (role : Role) : stringToRole (roleToString role) = role := by
  cases role <;> decide

/-- Every message is read back from its body. -/
theorem Message.fromJson_toJson (m : Message D) : Message.fromJson m.toJson = .ok m := by
  unfold Message.toJson
  generalize hm : insertIf (literal "tool_call_id") _ _ = members
  have hrole : members.lookup (literal "role") = some (.string (roleToString m.role)) := by
    rw [← hm]
    simp (disch := decide) only [lookup_insertIf_ne, lookup_insert_ne, lookup_insert_self]
  have hcontent : members.lookup (literal "content") = some (.string m.content) := by
    rw [← hm]
    simp (disch := decide) only [lookup_insertIf_ne, lookup_insert_self]
  have hname : members.lookup (literal "name") = m.name.map .string := by
    rw [← hm]
    simp (disch := decide) only [lookup_insertIf_ne]
    refine lookup_insertIf_self _ ?_
    simp (disch := decide) only [lookup_insert_ne, List.lookup_nil]
  have htoolCalls : members.lookup (literal "tool_calls") = m.toolCalls := by
    rw [← hm]
    simp (disch := decide) only [lookup_insertIf_ne]
    refine lookup_insertIf_self _ ?_
    simp (disch := decide) only [lookup_insertIf_ne, lookup_insert_ne, List.lookup_nil]
  have htoolCallId : members.lookup (literal "tool_call_id") = m.toolCallId.map .string := by
    rw [← hm]
    refine lookup_insertIf_self _ ?_
    simp (disch := decide) only [lookup_insertIf_ne, lookup_insert_ne, List.lookup_nil]
  unfold Message.fromJson Value.at_ Value.valueOr Value.getIf Value.find
  dsimp only
  rw [hrole, hcontent, hname, htoolCalls, htoolCallId]
  obtain ⟨role, content, name, toolCalls, toolCallId⟩ := m
  cases name <;> cases toolCalls <;> cases toolCallId <;>
    exact congrArg (fun role => Except.ok (Message.mk role _ _ _ _)) (stringToRole_roleToString role)

/-- What is left out when it is none is read back as it was. -/
theorem getIf_of_map {α : Type} {get : Value D → Read α} {put : α → Value D} {j : Value D}
    {key : Key} {o : Option α} (hfind : j.find key = o.map put)
    (hput : ∀ a, get (put a) = .ok a) : j.getIf get key = .ok o := by
  unfold Value.getIf
  rw [hfind]
  cases o with
  | none => rfl
  | some a => exact congrArg (Except.map some) (hput a)

/-- A member that is not written is not read. -/
theorem getIf_of_none {α : Type} {get : Value D → Read α} {j : Value D} {key : Key}
    (hfind : j.find key = none) : j.getIf get key = .ok none := by
  unfold Value.getIf
  rw [hfind]

/-- The members that are written if they are there. -/
theorem toJson_find (r : ChatCompletionRequest D) :
    r.toJson.find (literal "temperature") = r.temperature.map .numberFloat ∧
      r.toJson.find (literal "top_p") = r.topP.map .numberFloat ∧
      r.toJson.find (literal "max_tokens") =
        (r.maxTokens.map fun n => .numberInteger n.toInt64) ∧
      r.toJson.find (literal "stop") = (r.stop.map fun stop => .array (stop.map .string)) ∧
      r.toJson.find (literal "seed") = r.seed.map .numberInteger := by
  unfold ChatCompletionRequest.toJson Value.find
  dsimp only
  refine ⟨?_, ?_, ?_, ?_, lookup_insertIf_self _ ?_⟩
  case' refine_1 | refine_2 | refine_3 | refine_4 =>
    simp (disch := decide) only [lookup_insertIf_ne]
    refine lookup_insertIf_self _ ?_
  all_goals simp (disch := decide) only [lookup_insertIf_ne, lookup_insert_ne, List.lookup_nil]

/-- The members that are never written. -/
theorem toJson_find_none (r : ChatCompletionRequest D) :
    r.toJson.find (literal "tools") = none ∧ r.toJson.find (literal "presence_penalty") = none ∧
      r.toJson.find (literal "frequency_penalty") = none ∧
      r.toJson.find (literal "user") = none := by
  unfold ChatCompletionRequest.toJson Value.find
  dsimp only
  refine ⟨?_, ?_, ?_, ?_⟩ <;>
    simp (disch := decide) only [lookup_insertIf_ne, lookup_insert_ne, List.lookup_nil]

/-- The members that are always written. -/
theorem toJson_always (r : ChatCompletionRequest D) :
    r.toJson.at_ (literal "model") = .ok (.string r.model) ∧
      r.toJson.at_ (literal "messages") = .ok (.array (r.messages.map Message.toJson)) ∧
      r.toJson.valueOr Value.getBoolean (literal "stream") false = .ok r.stream := by
  unfold ChatCompletionRequest.toJson Value.at_ Value.valueOr
  dsimp only
  refine ⟨?_, ?_, ?_⟩ <;>
    simp (disch := decide) only [lookup_insertIf_ne, lookup_insert_ne, lookup_insert_self,
      Value.getBoolean]

/-- **What comes back.**  The penalties and the user are not written, and neither
are the tools; the tools and an absent stop list are those of the target. -/
theorem fromJson_toJson (c : Conversions D) (r r₀ : ChatCompletionRequest D) :
    ChatCompletionRequest.fromJson c r.toJson r₀ =
      .ok { r with
        stop := r.stop.or r₀.stop
        tools := r₀.tools
        presencePenalty := none
        frequencyPenalty := none
        user := none } := by
  obtain ⟨hmodel, hmessages, hstream⟩ := toJson_always r
  obtain ⟨htemperature, htopP, hmaxTokens, hstop, hseed⟩ := toJson_find r
  obtain ⟨htools, hpresence, hfrequency, huser⟩ := toJson_find_none r
  have hgetStop : getStop r.toJson r₀.stop = .ok (r.stop.or r₀.stop) := by
    unfold getStop
    rw [hstop]
    cases r.stop with
    | none => rfl
    | some stop =>
        have hstrings : (stop.map (Value.string (D := D))).mapM Value.getString = .ok stop :=
          mapM_map stop fun s _ => rfl
        exact congrArg (Except.map some) hstrings
  have hgetTools : getTools r.toJson r₀.tools = .ok r₀.tools := by
    unfold getTools
    rw [htools]
  have hgetMessages : (r.messages.map Message.toJson).mapM Message.fromJson = .ok r.messages :=
    mapM_map r.messages fun m _ => m.fromJson_toJson
  have hgetMaxTokens : r.toJson.getIf (Value.getInt32 c) (literal "max_tokens") =
      .ok r.maxTokens := by
    refine getIf_of_map hmaxTokens fun n => congrArg Except.ok ?_
    rw [Int32.toInt_toInt64, Int32.ofInt_toInt]
  unfold ChatCompletionRequest.fromJson
  rw [hmodel, hmessages, hstream, hgetStop, hgetTools, hgetMaxTokens,
    getIf_of_map htemperature fun _ => rfl, getIf_of_map htopP fun _ => rfl,
    getIf_of_map hseed fun _ => rfl, getIf_of_none hpresence, getIf_of_none hfrequency,
    getIf_of_none huser]
  dsimp only [Value.getString, Value.items, bind, Except.bind]
  rw [hgetMessages]
  rfl

/-- **The round trip.**  A request comes back as it was if and only if it has no
penalties and no user, its tools are those of the target, and the target has no
stop list where the request has none. -/
theorem fromJson_toJson_iff (c : Conversions D) (r r₀ : ChatCompletionRequest D) :
    ChatCompletionRequest.fromJson c r.toJson r₀ = .ok r ↔
      r.presencePenalty = none ∧ r.frequencyPenalty = none ∧ r.user = none ∧
        r₀.tools = r.tools ∧ (r.stop = none → r₀.stop = none) := by
  rw [fromJson_toJson]
  constructor
  · intro h
    have h := Except.ok.inj h
    have hpresence := congrArg ChatCompletionRequest.presencePenalty h
    have hfrequency := congrArg ChatCompletionRequest.frequencyPenalty h
    have huser := congrArg ChatCompletionRequest.user h
    have htools := congrArg ChatCompletionRequest.tools h
    have hsame := congrArg ChatCompletionRequest.stop h
    refine ⟨hpresence.symm, hfrequency.symm, huser.symm, htools, fun hstop => ?_⟩
    dsimp only at hsame
    rw [hstop] at hsame
    exact hsame
  · rintro ⟨hpresence, hfrequency, huser, htools, hstop⟩
    have hsame : r.stop.or r₀.stop = r.stop := by
      cases hgiven : r.stop with
      | none => exact hstop hgiven
      | some stop => rfl
    rw [hsame, htools]
    cases r
    cases hpresence
    cases hfrequency
    cases huser
    rfl

/-- A request that names its user. -/
theorem fromJson_toJson_user :
    ChatCompletionRequest.fromJson (D := Rat) ⟨fun n => n, fun _ => 0, fun _ => 0⟩
        (ChatCompletionRequest.toJson { user := some (literal "u") }) {} = .ok {} ∧
      ({ user := some (literal "u") } : ChatCompletionRequest Rat).user ≠
        ({} : ChatCompletionRequest Rat).user :=
  ⟨fromJson_toJson _ _ _, by decide⟩

end Wire

end Qwen
