import WinInference.Api.Stream
import WinInference.Api.Types
import WinInference.Words.Blocks

/-!
# The frames of a stream as text

`to_json` of `api/types.cpp` for a streaming chunk, and the `data:` events that
the content provider makes of chunks and of errors (`api/routes.cpp`).

On the other side stands a client.  It splits what has arrived at the empty
lines, parses the data of each event and takes the frame from the JSON.  The
JSON library is a parameter: of its `dump` and of `parse` only what happens to
the values of a stream is used.
-/

namespace Qwen

open Json

/-- `finish_reason_to_string`. -/
def finishReasonToString : FinishReason → Bytes
  | .stop => literal "stop"
  | .length => literal "length"
  | .toolCalls => literal "tool_calls"
  | .contentFilter => literal "content_filter"
  | .none => literal ""

namespace Wire

variable {D : Type}

/-- Streaming delta content. -/
structure Delta (D : Type) where
  role : Option Role := none
  content : Option Bytes := none
  toolCalls : Option (Value D) := none

/-- Streaming choice. -/
structure StreamChoice (D : Type) where
  index : Int32 := 0
  delta : Delta D
  finishReason : Option FinishReason := none

/-- Streaming chunk response. -/
structure ChatCompletionChunk (D : Type) where
  id : Bytes
  object : Bytes := literal "chat.completion.chunk"
  created : Int64 := 0
  model : Bytes
  choices : List (StreamChoice D)

/-- `to_json(delta)`: only the fields that are set. -/
def Delta.toJson (d : Delta D) : Value D :=
  .object
    (insertIf (literal "tool_calls") d.toolCalls
      (insertIf (literal "content") (d.content.map .string)
        (insertIf (literal "role") (d.role.map fun role => .string (roleToString role)) [])))

/-- `to_json(choice)`: the delta, and the finish reason or null. -/
def StreamChoice.toJson (c : StreamChoice D) : Value D :=
  .object
    (insert (literal "finish_reason")
        ((c.finishReason.map fun reason => .string (finishReasonToString reason)).getD .null)
      (insert (literal "delta") c.delta.toJson
        (insert (literal "index") (.numberInteger c.index.toInt64) [])))

/-- `to_json(chunk)`: a chunk with its choices as an array. -/
def ChatCompletionChunk.toJson (c : ChatCompletionChunk D) : Value D :=
  .object
    (insert (literal "choices") (.array (c.choices.map StreamChoice.toJson))
      (insert (literal "model") (.string c.model)
        (insert (literal "created") (.numberInteger c.created)
          (insert (literal "object") (.string c.object)
            (insert (literal "id") (.string c.id) [])))))

/-- The `error_event` of the content provider. -/
def errorEvent (message type code : String) : Value D :=
  .object (insert (literal "error")
    (.object
      (insert (literal "code") (.string (literal code))
        (insert (literal "type") (.string (literal type))
          (insert (literal "message") (.string (literal message)) [])))) [])

section Find

/-- The members that a client looks at. -/
theorem Delta.find (d : Delta D) :
    d.toJson.find (literal "role") = d.role.map (fun role => .string (roleToString role)) ∧
      d.toJson.find (literal "content") = d.content.map .string := by
  unfold Delta.toJson Value.find
  dsimp only
  constructor
  · simp (disch := decide) only [lookup_insertIf_ne]
    exact lookup_insertIf_self _ rfl
  · simp (disch := decide) only [lookup_insertIf_ne]
    refine lookup_insertIf_self _ ?_
    simp (disch := decide) only [lookup_insertIf_ne, List.lookup_nil]

/-- The delta and the finish reason of a choice are found under their keys. -/
theorem StreamChoice.find (c : StreamChoice D) :
    c.toJson.find (literal "delta") = some c.delta.toJson ∧
      c.toJson.find (literal "finish_reason") =
        some ((c.finishReason.map fun reason => .string (finishReasonToString reason)).getD .null) := by
  unfold StreamChoice.toJson Value.find
  dsimp only
  constructor <;> simp (disch := decide) only [lookup_insert_ne, lookup_insert_self]

/-- A chunk has choices and no error. -/
theorem ChatCompletionChunk.find (c : ChatCompletionChunk D) :
    c.toJson.find (literal "error") = none ∧
      c.toJson.find (literal "choices") = some (.array (c.choices.map StreamChoice.toJson)) := by
  unfold ChatCompletionChunk.toJson Value.find
  dsimp only
  constructor <;>
    simp (disch := decide) only [lookup_insert_ne, lookup_insert_self, List.lookup_nil]

/-- The error of an error event is found under its keys. -/
theorem errorEvent_find (message type code : String) :
    ∃ j : Value D, (errorEvent message type code).find (literal "error") = some j ∧
      j.find (literal "message") = some (.string (literal message)) ∧
      j.find (literal "type") = some (.string (literal type)) ∧
      j.find (literal "code") = some (.string (literal code)) := by
  refine ⟨_, lookup_insert_self, ?_⟩
  unfold Value.find
  dsimp only
  refine ⟨?_, ?_, ?_⟩ <;>
    simp (disch := decide) only [lookup_insert_ne, lookup_insert_self]

end Find

end Wire

open Wire

/-! ## The server's side -/

/-- What every chunk of a stream says besides its time. -/
structure StreamInfo where
  completionId : String
  modelName : String

/-- What is used of the JSON library. -/
structure JsonLibrary (D : Type) where
  dump : Value D → Bytes
  parse : Bytes → Option (Value D)

/-- The end of a line. -/
abbrev lineEnd : UInt8 := 10

/-- A printed value is one line and is parsed as what it was. -/
structure JsonLibrary.Faithful {D : Type} (lib : JsonLibrary D) (j : Value D) : Prop where
  oneLine : lineEnd ∉ lib.dump j
  notMarker : lib.dump j ≠ literal "[DONE]"
  parse : lib.parse (lib.dump j) = some j.reparsed

namespace StreamFrame

variable {D : Type}

/-- A chunk with one choice. -/
def chunk (info : StreamInfo) (created : Int64) (delta : Delta D)
    (finishReason : Option FinishReason) : ChatCompletionChunk D :=
  { id := literal info.completionId, created := created, model := literal info.modelName
    choices := [{ delta := delta, finishReason := finishReason }] }

/-- The JSON of a frame; the last one has none. -/
def toJson (info : StreamInfo) (created : Int64) : StreamFrame → Option (Value D)
  | .role => some (chunk info created { role := some .assistant } none).toJson
  | .content text => some (chunk info created { content := some text } none).toJson
  | .finish reason => some (chunk info created {} (some reason)).toJson
  | .error message type code => some (errorEvent message type code)
  | .done => none

/-- The data of an event. -/
def data (lib : JsonLibrary D) (info : StreamInfo) (created : Int64) (frame : StreamFrame) :
    Bytes :=
  match frame.toJson info created with
  | some j => lib.dump j
  | none => literal "[DONE]"

/-- What is given to the sink. -/
def text (lib : JsonLibrary D) (info : StreamInfo) (created : Int64) (frame : StreamFrame) :
    Bytes :=
  literal "data: " ++ frame.data lib info created ++ literal "\n\n"

end StreamFrame

/-- The bytes of frames, each with the time it was made at. -/
def streamText {D : Type} (lib : JsonLibrary D) (info : StreamInfo)
    (stamped : List (StreamFrame × Int64)) : Bytes :=
  stamped.flatMap fun e => e.1.text lib info e.2

/-! ## The client's side -/

namespace StreamClient

variable {D : Type}

/-- The finish reason a client reads from its name. -/
def finishReason? (s : Bytes) : Option FinishReason :=
  [FinishReason.stop, .length, .toolCalls, .contentFilter, .none].find?
    fun reason => finishReasonToString reason = s

/-- A string, as text. -/
def text? : Option (Value D) → Option String
  | some (.string s) => String.fromUTF8? ⟨s.toArray⟩
  | _ => none

/-- The error a client reads from an event. -/
def errorFrame? (j : Value D) : Option StreamFrame := do
  let message ← text? (j.find (literal "message"))
  let type ← text? (j.find (literal "type"))
  let code ← text? (j.find (literal "code"))
  return .error message type code

/-- The frame a client reads from a choice. -/
def choiceFrame? (choice : Value D) : Option StreamFrame :=
  match choice.find (literal "finish_reason") with
  | some (.string reason) => (finishReason? reason).map .finish
  | _ =>
      match (choice.find (literal "delta")).bind (·.find (literal "content")) with
      | some (.string text) => some (.content text)
      | _ => ((choice.find (literal "delta")).bind (·.find (literal "role"))).map fun _ => .role

/-- The frame of an event with this JSON. -/
def frame? (j : Value D) : Option StreamFrame :=
  match j.find (literal "error") with
  | some e => errorFrame? e
  | none =>
      match j.find (literal "choices") with
      | some (.array choices) => choices.head?.bind choiceFrame?
      | _ => none

/-- The data of an event: what its data lines say. -/
def eventData (event : List Bytes) : Bytes :=
  [lineEnd].intercalate
    ((event.filter (literal "data: ").isPrefixOf).map (·.drop (literal "data: ").length))

/-- The frame of an event. -/
def eventFrame? (lib : JsonLibrary D) (event : List Bytes) : Option StreamFrame :=
  if eventData event = literal "[DONE]" then some .done
  else (lib.parse (eventData event)).bind frame?

/-- The frames in what has arrived. -/
def read (lib : JsonLibrary D) (arrived : Bytes) : List StreamFrame :=
  (Words.readBlocks lineEnd arrived).filterMap (eventFrame? lib)

end StreamClient

/-! ## A frame is read as it was written -/

section ReadBack

open StreamClient

variable {D : Type} {lib : JsonLibrary D} {info : StreamInfo} {created : Int64}

/-- Every finish reason is read back from its name. -/
theorem finishReason?_toString (reason : FinishReason) :
    finishReason? (finishReasonToString reason) = some reason := by
  cases reason <;> decide

/-- A literal text is read back. -/
theorem text?_literal (s : String) : text? (some (.string (literal s) : Value D)) = some s := by
  have hbytes : ByteArray.mk (literal s).toArray = s.toUTF8 := by
    rw [literal, Array.toArray_toList]
  rw [text?, hbytes]
  simp [String.fromUTF8?]
  exact ⟨s.isValidUTF8, rfl⟩

/-- A string comes back from the wire as it was written. -/
theorem reparsed_string (s : Bytes) : (Value.string s : Value D).reparsed = .string s := by
  rw [Value.reparsed]

/-- An error event is read back as the error it carries. -/
theorem frame?_errorEvent (message type code : String) :
    frame? (errorEvent (D := D) message type code).reparsed = some (.error message type code) := by
  obtain ⟨j, herror, hmessage, htype, hcode⟩ := errorEvent_find (D := D) message type code
  rw [frame?, Value.find_reparsed, herror]
  show errorFrame? j.reparsed = _
  unfold errorFrame?
  simp only [Value.find_reparsed, hmessage, htype, hcode, Option.map_some, reparsed_string,
    text?_literal]
  rfl

/-- The first choice of a chunk, printed and parsed. -/
theorem frame?_chunk (delta : Delta D) (finishReason : Option FinishReason) :
    frame? (StreamFrame.chunk info created delta finishReason).toJson.reparsed =
      choiceFrame? (StreamChoice.toJson { delta := delta, finishReason := finishReason }).reparsed := by
  obtain ⟨herror, hchoices⟩ := (StreamFrame.chunk info created delta finishReason).find
  rw [frame?, Value.find_reparsed, herror, Value.find_reparsed, hchoices]
  simp only [Option.map_none, Option.map_some, Value.reparsed, reparsedElements_eq]
  rfl

/-- A choice is read back as its finish reason, or as its text. -/
theorem choiceFrame?_toJson (c : StreamChoice D) :
    choiceFrame? c.toJson.reparsed =
      match c.finishReason with
      | some reason => some (.finish reason)
      | none =>
          match c.delta.content with
          | some text => some (.content text)
          | none => c.delta.role.map fun _ => .role := by
  obtain ⟨hdelta, hreason⟩ := c.find
  obtain ⟨hrole, hcontent⟩ := c.delta.find
  rw [choiceFrame?, Value.find_reparsed, Value.find_reparsed, hdelta, hreason]
  cases c.finishReason with
  | some reason =>
      simp only [Option.map_some, Option.getD_some, reparsed_string, finishReason?_toString]
  | none =>
      simp only [Option.map_none, Option.map_some, Option.getD_none, Option.bind_some,
        Value.find_reparsed, hcontent, hrole, Value.reparsed]
      cases c.delta.content with
      | some text => simp only [Option.map_some, reparsed_string]
      | none => cases c.delta.role <;> rfl

/-- The JSON of a frame is read as the frame. -/
theorem frame?_toJson {frame : StreamFrame} {j : Value D} (h : frame.toJson info created = some j) :
    frame? j.reparsed = some frame := by
  cases frame with
  | error message type code =>
      cases h
      exact frame?_errorEvent message type code
  | done => cases h
  | role | content | finish =>
      cases h
      exact (frame?_chunk _ _).trans (choiceFrame?_toJson _)

/-- An event with one data line. -/
theorem eventData_line (data : Bytes) : eventData [literal "data: " ++ data] = data := by
  have hprefix : (literal "data: ").isPrefixOf (literal "data: " ++ data) = true :=
    List.isPrefixOf_iff_prefix.mpr (List.prefix_append _ _)
  rw [eventData, List.filter_cons, if_pos hprefix, List.filter_nil, List.map_cons, List.map_nil,
    List.drop_left]
  simp [List.intercalate]

/-- The event of a frame. -/
def StreamFrame.event (lib : JsonLibrary D) (info : StreamInfo) (e : StreamFrame × Int64) :
    List Bytes :=
  [literal "data: " ++ e.1.data lib info e.2]

variable {e : StreamFrame × Int64}

/-- An event the server writes is read back as the frame it was written for. -/
theorem eventFrame?_event (h : ∀ j, e.1.toJson info e.2 = some j → lib.Faithful j) :
    eventFrame? lib (StreamFrame.event lib info e) = some e.1 := by
  unfold eventFrame?
  rw [StreamFrame.event, eventData_line]
  cases hjson : e.1.toJson (D := D) info e.2 with
  | none =>
      have hdone : e.1 = .done := by
        cases hframe : e.1 with
        | done => rfl
        | role | content | finish | error =>
            rw [hframe] at hjson
            cases hjson
      rw [StreamFrame.data, hjson, if_pos rfl, hdone]
  | some j =>
      obtain ⟨-, hmarker, hparse⟩ := h j hjson
      have hdata : e.1.data lib info e.2 = lib.dump j := by rw [StreamFrame.data, hjson]
      rw [hdata, if_neg hmarker, hparse]
      exact frame?_toJson hjson

/-- An event the server writes is one block of the stream. -/
theorem isBlock_event (h : ∀ j, e.1.toJson info e.2 = some j → lib.Faithful j) :
    Words.IsBlock lineEnd (StreamFrame.event lib info e) := by
  refine ⟨List.cons_ne_nil _ _, fun line hline => ?_⟩
  obtain rfl := List.mem_singleton.mp hline
  refine ⟨List.append_ne_nil_of_left_ne_nil (by decide) _, ?_⟩
  rw [List.mem_append, not_or]
  refine ⟨by decide, ?_⟩
  cases hjson : e.1.toJson (D := D) info e.2 with
  | none =>
      rw [StreamFrame.data, hjson]
      show lineEnd ∉ literal "[DONE]"
      decide
  | some j =>
      rw [StreamFrame.data, hjson]
      exact (h j hjson).oneLine

/-- The stream is written in blocks. -/
theorem streamText_eq (stamped : List (StreamFrame × Int64)) :
    streamText lib info stamped =
      Words.writeBlocks lineEnd (stamped.map (StreamFrame.event lib info)) := by
  rw [Words.writeBlocks, List.flatMap_map]
  refine List.flatMap_congr fun e _ => ?_
  simp [StreamFrame.text, StreamFrame.event, Words.writeBlock, Words.writeLines]
  decide

/-- **The stream is read as it was written.**  A client that has received the
first bytes of a stream has read the first of its frames. -/
theorem read_prefix {stamped : List (StreamFrame × Int64)} {arrived : Bytes}
    (hlib : ∀ e ∈ stamped, ∀ j, e.1.toJson info e.2 = some j → lib.Faithful j)
    (harrived : arrived <+: streamText lib info stamped) :
    read lib arrived <+: stamped.map Prod.fst := by
  rw [streamText_eq] at harrived
  have hblocks : ∀ block ∈ stamped.map (StreamFrame.event lib info),
      Words.IsBlock lineEnd block := by
    intro block hblock
    obtain ⟨e, he, rfl⟩ := List.mem_map.mp hblock
    exact isBlock_event (hlib e he)
  have hcut := Words.readBlocks_cut hblocks harrived
  have hall : (stamped.map (StreamFrame.event lib info)).filterMap (eventFrame? lib) =
      stamped.map Prod.fst := by
    rw [List.filterMap_map, ← List.filterMap_eq_map]
    exact List.filterMap_congr fun e he => eventFrame?_event (hlib e he)
  rw [← hall]
  exact hcut.filterMap _

end ReadBack

end Qwen
