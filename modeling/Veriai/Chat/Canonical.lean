import Veriai.Core.Json
import Veriai.Runtime.LlamaCpp

/-!
# The request body and the canonical input

How a JSON body becomes a `ChatCompletionRequest`, the canonical bytes of the
inference request made of it, and which requests share these bytes: the writer
has one text, `null`, for an absent temperature and for an infinite one.
-/

namespace Veriai.Chat

open Veriai.Runtime

/-- Why a body does not have the shape of a request. -/
inductive BodyError where
  | invalidType (expected : String)
  | invalidLength (length : Nat)
  | trailingCharacters
  | missingField (name : String)
  | duplicateField (name : String)
  | unknownField (name : String)
  deriving DecidableEq, Repr

/-- How serde_json reads and writes an `f32`: `toF32` rounds a number literal, and gives an infinite
value outside the range; `show32` is the decimal text of a finite value. -/
structure SerdeFloat where
  toF32 : Rat → F32
  show32 : Rat → List Char

/-- A `String` field. -/
def readString : Json → Except BodyError String
  | .string text => .ok text
  | _ => .error (.invalidType "a string")

/-- An `Option<f32>` field. -/
def readTemperature (serde : SerdeFloat) : Json → Except BodyError (Option F32)
  | .null => .ok none
  | .number value => .ok (some (serde.toF32 value))
  | _ => .error (.invalidType "f32")

/-- A field of a derived struct is read once. -/
def readOnce {α : Type} (name : String) (read : Json → Except BodyError α) (slot : Option α)
    (value : Json) : Except BodyError (Option α) :=
  match slot with
  | some _ => .error (.duplicateField name)
  | none => (read value).map some

/-- The next element of a struct written as a sequence. -/
def nextElement {α : Type} (index : Nat) (read : Json → Except BodyError α) :
    List Json → Except BodyError (α × List Json)
  | [] => .error (.invalidLength index)
  | item :: items => return (← read item, items)

/-- One member of a `Message` object; unknown ones are ignored. -/
def messageMember (slots : Option String × Option String) (member : String × Json) :
    Except BodyError (Option String × Option String) :=
  match member.1 with
  | "role" => return (← readOnce "role" readString slots.1 member.2, slots.2)
  | "content" => return (slots.1, ← readOnce "content" readString slots.2 member.2)
  | _ => .ok slots

/-- `Message`, as its derived `Deserialize` reads it. -/
def readMessage : Json → Except BodyError Message
  | .object members => do
    let (role, content) ← members.foldlM messageMember (none, none)
    return ⟨← okOr role (.missingField "role"), ← okOr content (.missingField "content")⟩
  | .array items => do
    let (role, items) ← nextElement 0 readString items
    let (content, items) ← nextElement 1 readString items
    refuseIf (items.isEmpty = false) .trailingCharacters
    return ⟨role, content⟩
  | _ => .error (.invalidType "struct Message")

/-- A `Vec<Message>` field. -/
def readMessages : Json → Except BodyError (List Message)
  | .array items => items.mapM readMessage
  | _ => .error (.invalidType "a sequence")

/-- The fields of a `ChatCompletionRequest` read so far. -/
structure RequestSlots where
  model : Option String := none
  messages : Option (List Message) := none
  temperature : Option (Option F32) := none

/-- One member of the body; `deny_unknown_fields` refuses any other. -/
def requestMember (serde : SerdeFloat) (slots : RequestSlots) (member : String × Json) :
    Except BodyError RequestSlots :=
  match member.1 with
  | "model" => return { slots with model := ← readOnce "model" readString slots.model member.2 }
  | "messages" =>
    return { slots with messages := ← readOnce "messages" readMessages slots.messages member.2 }
  | "temperature" =>
    return { slots with
      temperature := ← readOnce "temperature" (readTemperature serde) slots.temperature member.2 }
  | name => .error (.unknownField name)

/-- `ChatCompletionRequest`, as its derived `Deserialize` reads it: a missing temperature is
`None`. Every number is taken here; `serde_json` refuses a literal beyond the range of `f64`
before, and tells `-0.0` from `0.0`, which are one number here. -/
def readRequest (serde : SerdeFloat) : Json → Except BodyError ChatCompletionRequest
  | .object members => do
    let slots ← members.foldlM (requestMember serde) {}
    return {
      model := ← okOr slots.model (.missingField "model")
      messages := ← okOr slots.messages (.missingField "messages")
      temperature := slots.temperature.getD none }
  | .array items => do
    let (model, items) ← nextElement 0 readString items
    let (messages, items) ← nextElement 1 readMessages items
    let (temperature, items) ← nextElement 2 (readTemperature serde) items
    refuseIf (items.isEmpty = false) .trailingCharacters
    return ⟨model, messages, temperature⟩
  | _ => .error (.invalidType "struct ChatCompletionRequest")

/-- The inference request the handler makes of a body. -/
def inferenceRequest (payload : ChatCompletionRequest) : InferenceRequest :=
  { model := payload.model, messages := payload.messages, temperature := payload.temperature }

/-- The value of a finite temperature. -/
def finiteValue : Option F32 → Option Rat
  | some (.finite value) => some value
  | _ => none

/-- A temperature: an absent one and one that is not finite are written as `null`. -/
def writeTemperature (serde : SerdeFloat) (temperature : Option F32) : List Char :=
  match finiteValue temperature with
  | some value => serde.show32 value
  | none => ['n', 'u', 'l', 'l']

/-- What stands before the values of a written `Message` and of a written `InferenceRequest`. -/
inductive Key where
  | role | content | model | messages | temperature

/-- The text of a key, with what separates it from the value before. -/
def Key.text : Key → String
  | .role => "\x7b\"role\":"
  | .content => ",\"content\":"
  | .model => "\x7b\"model\":"
  | .messages => ",\"messages\":"
  | .temperature => ",\"temperature\":"

/-- A `Message`, as its derived `Serialize` writes it. -/
def writeMessage (m : Message) : List Char :=
  Key.role.text.toList ++ (writeString m.role ++ (Key.content.text.toList ++
    (writeString m.content ++ ['}'])))

/-- An `InferenceRequest`, as its derived `Serialize` writes it. -/
def writeRequest (serde : SerdeFloat) (request : InferenceRequest) : List Char :=
  Key.model.text.toList ++ (writeString request.model ++ (Key.messages.text.toList ++
    (writeArray writeMessage request.messages ++ (Key.temperature.text.toList ++
      (writeTemperature serde request.temperature ++ ['}'])))))

/-- `serde_json::to_vec` of a request. -/
def toVec (serde : SerdeFloat) (request : InferenceRequest) : Except String Bytes :=
  .ok (utf8Bytes (String.ofList (writeRequest serde request)))

/-- What is documented of the decimal text of a finite `f32`: it is not `null`, and values that
literals are read as have texts of their own. -/
structure SerdeFloat.Lawful (serde : SerdeFloat) : Prop where
  injective : ∀ x y v w, serde.toF32 x = .finite v → serde.toF32 y = .finite w →
    serde.show32 v = serde.show32 w → v = w
  notNull : ∀ v, serde.show32 v ≠ ['n', 'u', 'l', 'l']

/-- The temperature was read from a body. -/
def Parsed (serde : SerdeFloat) (temperature : Option F32) : Prop :=
  ∀ t, temperature = some t → ∃ x, serde.toF32 x = t

theorem parsed_readTemperature {serde : SerdeFloat} {value : Json} {temperature : Option F32}
    (h : readTemperature serde value = .ok temperature) : Parsed serde temperature := by
  unfold readTemperature at h
  split at h
  · obtain rfl := Except.ok.inj h
    rintro _ ⟨⟩
  · obtain rfl := Except.ok.inj h
    rintro t ht
    exact ⟨_, Option.some.inj ht⟩
  · cases h

/-- Reading members keeps the temperature one that was read. -/
theorem parsed_requestMembers {serde : SerdeFloat} {members : List (String × Json)}
    {slots slots' : RequestSlots} (h : members.foldlM (requestMember serde) slots = .ok slots')
    (hslots : ∀ t, slots.temperature = some t → Parsed serde t) :
    ∀ t, slots'.temperature = some t → Parsed serde t := by
  induction members generalizing slots with
  | nil =>
    obtain rfl := Except.ok.inj h
    exact hslots
  | cons member members ih =>
    rw [List.foldlM_cons, bind_eq_ok] at h
    obtain ⟨slots₁, hmember, hrest⟩ := h
    refine ih hrest ?_
    unfold requestMember at hmember
    split at hmember
    · obtain ⟨_, _, hpure⟩ := bind_eq_ok.mp hmember
      obtain rfl := Except.ok.inj hpure
      exact hslots
    · obtain ⟨_, _, hpure⟩ := bind_eq_ok.mp hmember
      obtain rfl := Except.ok.inj hpure
      exact hslots
    · obtain ⟨slot, hread, hpure⟩ := bind_eq_ok.mp hmember
      obtain rfl := Except.ok.inj hpure
      intro t ht
      obtain rfl : slot = some t := ht
      unfold readOnce at hread
      split at hread
      · cases hread
      · cases hvalue : readTemperature serde member.2 with
        | error e =>
          rw [hvalue] at hread
          cases hread
        | ok t' =>
          rw [hvalue] at hread
          obtain rfl := Option.some.inj (Except.ok.inj hread)
          exact parsed_readTemperature hvalue
    · cases hmember

/-- A request read from a body has a temperature read from it, or none. -/
theorem parsed_readRequest {serde : SerdeFloat} {body : Json} {payload : ChatCompletionRequest}
    (h : readRequest serde body = .ok payload) : Parsed serde payload.temperature := by
  unfold readRequest at h
  split at h
  · obtain ⟨slots, hfold, h⟩ := bind_eq_ok.mp h
    obtain ⟨model, _, h⟩ := bind_eq_ok.mp h
    obtain ⟨messages, _, h⟩ := bind_eq_ok.mp h
    obtain rfl := Except.ok.inj h
    have hslots := parsed_requestMembers hfold (by rintro _ ⟨⟩)
    cases ht : slots.temperature with
    | none => rintro _ ⟨⟩
    | some t => exact hslots t ht
  · obtain ⟨⟨model, rest⟩, _, h⟩ := bind_eq_ok.mp h
    obtain ⟨⟨messages, rest'⟩, _, h⟩ := bind_eq_ok.mp h
    obtain ⟨⟨temperature, rest''⟩, hnext, h⟩ := bind_eq_ok.mp h
    obtain ⟨_, _, h⟩ := bind_eq_ok.mp h
    obtain rfl := Except.ok.inj h
    cases rest' with
    | nil => cases hnext
    | cons item items =>
      obtain ⟨t, hread, hpure⟩ := bind_eq_ok.mp hnext
      obtain ⟨rfl, _⟩ := Prod.mk.inj (Except.ok.inj hpure)
      exact parsed_readTemperature hread
  · cases h

/-- A written message can be told from what follows it. -/
theorem selfDelimiting_writeMessage : SelfDelimiting writeMessage := by
  rintro ⟨role, content⟩ ⟨role', content'⟩ r r' heq
  unfold writeMessage at heq
  simp only [List.append_assoc] at heq
  obtain ⟨rfl, hbehind⟩ := selfDelimiting_writeString _ _ _ _ (List.append_cancel_left heq)
  obtain ⟨rfl, hrest⟩ := selfDelimiting_writeString _ _ _ _ (List.append_cancel_left hbehind)
  exact ⟨rfl, List.append_cancel_left hrest⟩

/-- So can a written array of messages. -/
theorem selfDelimiting_writeMessages : SelfDelimiting (writeArray writeMessage) := by
  refine selfDelimiting_writeMessage.bracketed (by decide) ?_
  intro m
  refine ⟨'{', (writeMessage m).drop 1, ?_, by decide⟩
  have hkey : Key.role.text.toList = '{' :: Key.role.text.toList.drop 1 := by simp [Key.text]
  unfold writeMessage
  rw [hkey]
  rfl

/-- The text of a request determines its model, its messages and the text of its temperature. -/
theorem writeRequest_eq_iff {serde : SerdeFloat} {request request' : InferenceRequest} :
    writeRequest serde request = writeRequest serde request' ↔
      request.model = request'.model ∧ request.messages = request'.messages ∧
        writeTemperature serde request.temperature =
          writeTemperature serde request'.temperature := by
  constructor
  · intro heq
    unfold writeRequest at heq
    have hmodelText := List.append_cancel_left heq
    obtain ⟨hmodel, hbehind⟩ := selfDelimiting_writeString _ _ _ _ hmodelText
    obtain ⟨hmessages, hrest⟩ :=
      selfDelimiting_writeMessages _ _ _ _ (List.append_cancel_left hbehind)
    exact ⟨hmodel, hmessages, List.append_cancel_right (List.append_cancel_left hrest)⟩
  · rintro ⟨hmodel, hmessages, htemperature⟩
    unfold writeRequest
    rw [hmodel, hmessages, htemperature]

/-- The text of a temperature determines its finite value. -/
theorem writeTemperature_eq_iff {serde : SerdeFloat} (hserde : serde.Lawful) {t t' : Option F32}
    (ht : Parsed serde t) (ht' : Parsed serde t') :
    writeTemperature serde t = writeTemperature serde t' ↔ finiteValue t = finiteValue t' := by
  have hsource : ∀ {t : Option F32} {v : Rat}, Parsed serde t → finiteValue t = some v →
      ∃ x, serde.toF32 x = .finite v := by
    intro t v hparsed hv
    match t, hv with
    | some (.finite _), rfl => exact hparsed _ rfl
  refine ⟨?_, fun h => by rw [writeTemperature, writeTemperature, h]⟩
  unfold writeTemperature
  intro heq
  cases hv : finiteValue t with
  | none =>
    cases hw : finiteValue t' with
    | none => rfl
    | some w =>
      rw [hv, hw] at heq
      exact absurd heq.symm (hserde.notNull w)
  | some v =>
    cases hw : finiteValue t' with
    | none =>
      rw [hv, hw] at heq
      exact absurd heq (hserde.notNull v)
    | some w =>
      rw [hv, hw] at heq
      obtain ⟨x, hx⟩ := hsource ht hv
      obtain ⟨y, hy⟩ := hsource ht' hw
      rw [hserde.injective x y v w hx hy heq]

/-- The bytes of two requests are the same where their texts are. -/
theorem toVec_eq_iff {serde : SerdeFloat} {request request' : InferenceRequest} :
    toVec serde request = toVec serde request' ↔
      writeRequest serde request = writeRequest serde request' := by
  constructor
  · intro heq
    have hbytes := Array.toList_inj.mp (Except.ok.inj heq)
    exact String.ofList_injective (String.toByteArray_inj.mp (ByteArray.ext hbytes))
  · intro heq
    rw [toVec, toVec, heq]

/-- The canonical bytes bind the two requests: where these are equal, so is everything the runtime
acts on. -/
structure Agrees (payload payload' : ChatCompletionRequest) : Prop where
  model : payload.model = payload'.model
  messages : payload.messages = payload'.messages
  temperature : payload.temperature = payload'.temperature
  prompt : prompt (inferenceRequest payload) = prompt (inferenceRequest payload')
  effective : effectiveTemperature (inferenceRequest payload) =
    effectiveTemperature (inferenceRequest payload')

/-- Requests agree where they are the same. -/
theorem agrees_iff {payload payload' : ChatCompletionRequest} :
    Agrees payload payload' ↔ payload = payload' := by
  constructor
  · intro h
    obtain ⟨model, messages, temperature⟩ := payload
    obtain rfl : model = payload'.model := h.model
    obtain rfl : messages = payload'.messages := h.messages
    obtain rfl : temperature = payload'.temperature := h.temperature
    rfl
  · rintro rfl
    exact ⟨rfl, rfl, rfl, rfl, rfl⟩

/-- The requests differ in their temperatures only, and neither of these is finite: absent, `null`
or outside the range of an `f32`. -/
structure NullClash (payload payload' : ChatCompletionRequest) : Prop where
  model : payload.model = payload'.model
  messages : payload.messages = payload'.messages
  differ : payload.temperature ≠ payload'.temperature
  notFinite : finiteValue payload.temperature = none
  notFinite' : finiteValue payload'.temperature = none

/-- For every two bodies that parse, equal canonical bytes mean that model, messages, temperature,
prompt and effective temperature are the same, except exactly when the requests differ in two
temperatures of which neither is finite. -/
theorem canonicalBytes_bind_iff (serde : SerdeFloat) (hserde : serde.Lawful) (app : App)
    (happ : app.toJson = toVec serde) (body body' : Json) (payload payload' : ChatCompletionRequest)
    (h : readRequest serde body = .ok payload) (h' : readRequest serde body' = .ok payload') :
    ((inferenceRequest payload).canonicalBytes app =
        (inferenceRequest payload').canonicalBytes app → Agrees payload payload') ↔
      ¬ NullClash payload payload' := by
  have hbytes : (inferenceRequest payload).canonicalBytes app =
        (inferenceRequest payload').canonicalBytes app ↔ payload.model = payload'.model ∧
      payload.messages = payload'.messages ∧
        finiteValue payload.temperature = finiteValue payload'.temperature := by
    simp only [InferenceRequest.canonicalBytes, happ, toVec_eq_iff, writeRequest_eq_iff]
    have htemperature :=
      writeTemperature_eq_iff hserde (parsed_readRequest h) (parsed_readRequest h')
    exact and_congr_right fun _ => and_congr_right fun _ => htemperature
  rw [hbytes]
  constructor
  · intro hbind hclash
    have hfinite := hclash.notFinite.trans hclash.notFinite'.symm
    exact hclash.differ (hbind ⟨hclash.model, hclash.messages, hfinite⟩).temperature
  · rintro hno ⟨hmodel, hmessages, hfinite⟩
    have htemperature : payload.temperature = payload'.temperature := by
      by_contra hdiffer
      cases hv : finiteValue payload.temperature with
      | none => exact hno ⟨hmodel, hmessages, hdiffer, hv, hfinite.symm.trans hv⟩
      | some v =>
        refine hdiffer ?_
        have hv' := hfinite.symm.trans hv
        have hsome : ∀ t : Option F32, finiteValue t = some v → t = some (.finite v) := by
          rintro (_ | (w | negative)) ht
          · cases ht
          · rw [Option.some.inj ht]
          · cases ht
        rw [hsome _ hv, hsome _ hv']
    refine agrees_iff.mpr ?_
    obtain ⟨model, messages, temperature⟩ := payload
    obtain rfl : model = payload'.model := hmodel
    obtain rfl : messages = payload'.messages := hmessages
    obtain rfl : temperature = payload'.temperature := htemperature
    rfl

/-- Whole temperatures below `2 ^ 24`, which an `f32` holds exactly; any other literal counts as out
of range. -/
def wholeFloat : SerdeFloat where
  toF32 value :=
    if value.den = 1 ∧ 0 ≤ value.num ∧ value.num < 2 ^ 24 then .finite value
    else .infinite (decide (value < 0))
  show32 value := Nat.toDigits 10 value.num.toNat ++ ['.', '0']

theorem wholeFloat_lawful : wholeFloat.Lawful where
  injective x y v w hx hy hshow := by
    have hwhole : ∀ {x v : Rat}, wholeFloat.toF32 x = .finite v → v.den = 1 ∧ 0 ≤ v.num := by
      intro x v h
      simp only [wholeFloat] at h
      split at h
      · obtain rfl := F32.finite.inj h
        exact ⟨by omega, by omega⟩
      · cases h
    obtain ⟨hvden, hvpos⟩ := hwhole hx
    obtain ⟨hwden, hwpos⟩ := hwhole hy
    have hdigits := congrArg (Nat.ofDigitChars 10 · 0) (List.append_cancel_right hshow)
    simp only [Nat.ofDigitChars_toDigits (by omega : 1 < 10) (by omega : 10 ≤ 10)] at hdigits
    exact Rat.ext (by omega) (by omega)
  notNull v h := by
    have hlast := congrArg List.getLast? h
    simp [wholeFloat] at hlast

/-- An application of the demo whose requests are written with these temperatures. -/
def wholeApp : App where
  verifier := none
  modelHash := Transparent.fill 32 0
  modelId := "m"
  expectedPcr0 := none
  maxConcurrentInferences := 1
  realHardware := false
  toJson := toVec wholeFloat
  base64Encode _ := ""

/-- A body that asks one question with the given members behind it. -/
def question (members : List (String × Json)) : Json :=
  .object (("model", .string "m") ::
    ("messages", .array [.object [("role", .string "user"), ("content", .string "hi")]]) :: members)

/-- The request of that body. -/
def questionRequest (temperature : Option F32) : ChatCompletionRequest :=
  ⟨"m", [⟨"user", "hi"⟩], temperature⟩

/-- The temperatures 1 and 2 have different canonical bytes. -/
theorem canonicalBytes_bind_iff_whole :
    (inferenceRequest (questionRequest (some (.finite 1)))).canonicalBytes wholeApp ≠
      (inferenceRequest (questionRequest (some (.finite 2)))).canonicalBytes wholeApp := by
  intro heq
  have hbinds := (canonicalBytes_bind_iff wholeFloat wholeFloat_lawful wholeApp rfl
    (question [("temperature", .number 1)]) (question [("temperature", .number 2)])
    (questionRequest (some (.finite 1))) (questionRequest (some (.finite 2)))
    (by decide +kernel) (by decide +kernel)).mpr fun hclash => nomatch hclash.notFinite
  exact absurd (hbinds heq).temperature (by decide +kernel)

/-- A literal beyond the range and no temperature at all have one canonical text, while the
runtime samples at 2 for the one and at 0.7 for the other. -/
theorem canonicalBytes_shared :
    readRequest wholeFloat (question [("temperature", .number (10 ^ 39))]) =
        .ok (questionRequest (some (.infinite false))) ∧
      readRequest wholeFloat (question []) = .ok (questionRequest none) ∧
      (inferenceRequest (questionRequest (some (.infinite false)))).canonicalBytes wholeApp =
        (inferenceRequest (questionRequest none)).canonicalBytes wholeApp ∧
      (questionRequest (some (.infinite false))).temperature ≠
        (questionRequest none).temperature ∧
      effectiveTemperature (inferenceRequest (questionRequest (some (.infinite false)))) =
        .finite 2 ∧
      effectiveTemperature (inferenceRequest (questionRequest none)) = defaultTemperature := by
  refine ⟨?_, ?_, rfl, ?_, ?_, ?_⟩ <;> decide +kernel

end Veriai.Chat
