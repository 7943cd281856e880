import OmarchyKids.Common.Protocol
import OmarchyKids.Lib.JsonPrint
import OmarchyKids.Lib.JsonRecords

/-!
# OmarchyKids.Common.Wire

Requests and responses as texts: what the derived serializers write, and what the model asks
of the deserializers, which are not modelled: that they read back what is written
(`ReadsRequests`, `ReadsResponses`).

A request is an object with its variant under `cmd`; a tile may also name its id
`desktopId`, as the tier's own list does. The readers `Request.readBack` and
`Response.readBack` know no other spelling than this, and it is enough.
-/

namespace OmarchyKids

open JsonText (Value requiredField optionalField readStr readBool readI32 readU32 readList readObj)

/-! ### Tiles -/

def AppTile.toValue (t : AppTile) : Value :=
  .obj [("desktop_id", .str t.desktopId), ("label", .str t.label), ("icon", .str t.icon),
    ("swatch", .str t.swatch)]

def AppTile.ofMembers (members : List (String × Value)) : Option AppTile := do
  let desktopId ← requiredField readStr ["desktop_id", "desktopId"] members
  let label ← requiredField readStr ["label"] members
  let icon ← requiredField readStr ["icon"] members
  let swatch ← requiredField readStr ["swatch"] members
  return { desktopId, label, icon, swatch }

theorem AppTile.ofMembers_toValue (t : AppTile) :
    readObj AppTile.ofMembers t.toValue = some t := by
  simp [toValue, readObj, ofMembers, requiredField, JsonText.field, readStr]

/-! ### Requests -/

namespace Request

/-- The variant's name on the wire. -/
def cmd : Request → String
  | ping => "ping"
  | status => "status"
  | setTier _ _ => "set_tier"
  | unlock _ _ => "unlock"
  | override _ _ => "override"
  | overrideFailed _ => "override_failed"
  | report _ => "report"
  | wrapperAuthorize _ => "wrapper_authorize"
  | wrapperStart _ _ => "wrapper_start"
  | wrapperStop _ _ _ => "wrapper_stop"
  | wrapperPoll _ _ => "wrapper_poll"
  | pushContent _ => "push_content"

/-- An optionalField field that is absent is written as `null`. -/
def orNull {α : Type} (write : α → Value) : Option α → Value
  | none => .null
  | some a => write a

def writeU32 (n : UInt32) : Value := .num n.toNat 0

def fields : Request → List (String × Value)
  | ping => []
  | status => []
  | setTier tier apps =>
      [("tier", .str tier), ("apps", orNull (fun apps => .arr (apps.map AppTile.toValue)) apps)]
  | unlock app minutes => [("app", .str app), ("minutes", orNull writeU32 minutes)]
  | override app minutes => [("app", .str app), ("minutes", orNull writeU32 minutes)]
  | overrideFailed app => [("app", .str app)]
  | report week => [("week", .bool week)]
  | wrapperAuthorize app => [("app", .str app)]
  | wrapperStart app pid => [("app", .str app), ("pid", writeU32 pid)]
  | wrapperStop app pid exitCode =>
      [("app", .str app), ("pid", writeU32 pid), ("exit_code", orNull (.num · 0) exitCode)]
  | wrapperPoll app pid => [("app", .str app), ("pid", writeU32 pid)]
  | pushContent contentType => [("content_type", .str contentType)]

def toValue (r : Request) : Value := .obj (("cmd", .str r.cmd) :: r.fields)

/-- `serde_json::to_string`. -/
def toText (r : Request) : String := String.ofList (JsonText.print JsonText.compact 0 r.toValue)

/-- The variant of this name, from the members. -/
def ofTag (tag : String) (members : List (String × Value)) : Option Request :=
  if tag = "ping" then some ping
  else if tag = "status" then some status
  else if tag = "set_tier" then do
    let tier ← requiredField readStr ["tier"] members
    let apps ← optionalField (readList (readObj AppTile.ofMembers)) ["apps"] members
    return setTier tier apps
  else if tag = "unlock" then do
    let app ← requiredField readStr ["app"] members
    let minutes ← optionalField readU32 ["minutes"] members
    return unlock app minutes
  else if tag = "override" then do
    let app ← requiredField readStr ["app"] members
    let minutes ← optionalField readU32 ["minutes"] members
    return override app minutes
  else if tag = "override_failed" then do
    let app ← requiredField readStr ["app"] members
    return overrideFailed app
  else if tag = "report" then do
    let week ← requiredField readBool ["week"] members
    return report week
  else if tag = "wrapper_authorize" then do
    let app ← requiredField readStr ["app"] members
    return wrapperAuthorize app
  else if tag = "wrapper_start" then do
    let app ← requiredField readStr ["app"] members
    let pid ← requiredField readU32 ["pid"] members
    return wrapperStart app pid
  else if tag = "wrapper_stop" then do
    let app ← requiredField readStr ["app"] members
    let pid ← requiredField readU32 ["pid"] members
    let exitCode ← optionalField readI32 ["exit_code"] members
    return wrapperStop app pid exitCode
  else if tag = "wrapper_poll" then do
    let app ← requiredField readStr ["app"] members
    let pid ← requiredField readU32 ["pid"] members
    return wrapperPoll app pid
  else if tag = "push_content" then do
    let contentType ← requiredField readStr ["content_type"] members
    return pushContent contentType
  else none

def ofMembers (members : List (String × Value)) : Option Request :=
  (requiredField readStr ["cmd"] members).bind fun tag => ofTag tag members

/-- A reader of what `toText` writes. -/
def readBack (text : String) : Except String Request :=
  match (JsonText.decode text.toList).bind (readObj ofMembers) with
  | some r => .ok r
  | none => .error "no request"

/-- The exit code is an `i32`. -/
def CodeFits : Request → Prop
  | wrapperStop _ _ (some code) => -2 ^ 31 ≤ code ∧ code < 2 ^ 31
  | _ => True

theorem ofMembers_toValue {r : Request} (h : r.CodeFits) :
    readObj ofMembers r.toValue = some r := by
  cases r with
  | ping | status | overrideFailed | report | wrapperAuthorize | pushContent =>
      simp [toValue, cmd, fields, readObj, ofMembers, ofTag, requiredField, JsonText.field, readStr,
        readBool]
  | wrapperStart | wrapperPoll =>
      simp [toValue, cmd, fields, readObj, ofMembers, ofTag, requiredField, JsonText.field, readStr,
        writeU32, JsonText.readU32_num]
  | unlock app minutes | override app minutes =>
      cases minutes with
      | none =>
          simp [toValue, cmd, fields, readObj, ofMembers, ofTag, requiredField, optionalField,
            JsonText.field, readStr, orNull, JsonText.readOption]
      | some n =>
          have hread := JsonText.readOption_of_ne (by simp) (JsonText.readU32_num n)
          simp [toValue, cmd, fields, readObj, ofMembers, ofTag, requiredField, optionalField,
            JsonText.field, readStr, orNull, writeU32, hread]
  | setTier tier apps =>
      cases apps with
      | none =>
          simp [toValue, cmd, fields, readObj, ofMembers, ofTag, requiredField, optionalField,
            JsonText.field, readStr, orNull, JsonText.readOption]
      | some apps =>
          have hitems := @JsonText.readItems_map _ _ _ apps fun t _ => AppTile.ofMembers_toValue t
          have hread := @JsonText.readOption_of_ne _ (readList (readObj AppTile.ofMembers))
            (.arr (apps.map AppTile.toValue)) _ (by simp) hitems
          simp [toValue, cmd, fields, readObj, ofMembers, ofTag, requiredField, optionalField,
            JsonText.field, readStr, orNull, hread]
  | wrapperStop app pid exitCode =>
      cases exitCode with
      | none =>
          simp [toValue, cmd, fields, readObj, ofMembers, ofTag, requiredField, optionalField,
            JsonText.field, readStr, orNull, writeU32, JsonText.readU32_num, JsonText.readOption]
      | some code =>
          have hread := JsonText.readOption_of_ne (by simp) (JsonText.readI32_num h.1 h.2)
          simp [toValue, cmd, fields, readObj, ofMembers, ofTag, requiredField, optionalField,
            JsonText.field, readStr, orNull, writeU32, JsonText.readU32_num, hread]

end Request

/-- What `serde_json::from_str::<Request>` is for: every request is read back from its text. -/
def ReadsRequests (fromStr : String → Except String Request) : Prop :=
  ∀ r : Request, r.CodeFits → fromStr r.toText = .ok r

theorem readsRequests_readBack : ReadsRequests Request.readBack := by
  intro r h
  rw [Request.readBack, Request.toText, String.toList_ofList, JsonText.decode_print,
    Option.bind_some, Request.ofMembers_toValue h]

/-! ### Responses -/

namespace Response

def ofMembers (members : List (String × Value)) : Option Response := do
  let ok ← requiredField readBool ["ok"] members
  let data ← optionalField Json.ofValue ["data"] members
  let error ← optionalField readStr ["error"] members
  return { ok, data, error }

/-- A reader of such texts. -/
def readBack (text : String) : Option Response :=
  (JsonText.decode text.toList).bind (readObj ofMembers)

/-- What the daemon answers with: no `null` for data, and every object in it sorted, as
`serde_json::Value` keeps them. -/
structure Plain (r : Response) : Prop where
  data_ne : r.data ≠ some .null
  sorted : ∀ d, r.data = some d → d.Sorted

end Response

/-- What `serde_json::from_str::<Response>` is for. -/
def ReadsResponses (fromStr : String → Option Response) : Prop :=
  ∀ r : Response, r.Plain → fromStr r.text = some r

theorem readsResponses_readBack : ReadsResponses Response.readBack := by
  rintro ⟨ok, data, error⟩ h
  rw [Response.readBack, Response.text, String.toList_ofList, Json.decode_encode,
    Option.bind_some]
  cases data with
  | none =>
      cases error <;>
        simp [Response.toJson, Json.value, Json.fieldValues, readObj, Response.ofMembers,
          requiredField, optionalField, JsonText.field, readBool, readStr, JsonText.readOption]
  | some d =>
      have hread := Json.ofValue_value (h.sorted d rfl)
      have hnull : d.value ≠ .null := by
        intro hd
        cases d with
        | null => exact h.data_ne rfl
        | _ => simp [Json.value] at hd
      cases error <;>
        simp [Response.toJson, Json.value, Json.fieldValues, readObj, Response.ofMembers,
          requiredField, optionalField, JsonText.field, readBool, readStr, JsonText.readOption, hread]

end OmarchyKids
