import OmarchyKids.Common.Config
import OmarchyKids.Lib.Json

/-!
# OmarchyKids.Common.Protocol

The requests and responses of the daemon's socket, and the JSON a response is
written as. Payloads go through `serde_json::Value`, whose maps are sorted by
key; that is the order in which `toValue` lists the members.
-/

namespace OmarchyKids

/-- A request line, decoded. -/
inductive Request
  /-- Liveness check. -/
  | ping
  | status
  /-- `apps`, when given, replaces the record of the tier's base tile list. -/
  | setTier (tier : String) (apps : Option (List AppTile))
  /-- Temporary unlock; `minutes` defaults to `defaultUnlockMinutes`. -/
  | unlock (app : String) (minutes : Option UInt32)
  /-- Same effect as `unlock`, sent by the polkit-authenticated helper. -/
  | override (app : String) (minutes : Option UInt32)
  /-- An authentication prompt that was rejected or cancelled. -/
  | overrideFailed (app : String)
  | report (week : Bool)
  /-- Asked before anything is launched. -/
  | wrapperAuthorize (app : String)
  | wrapperStart (app : String) (pid : UInt32)
  | wrapperStop (app : String) (pid : UInt32) (exitCode : Option Int)
  /-- Asked while the app is running. -/
  | wrapperPoll (app : String) (pid : UInt32)
  /-- Reserved. -/
  | pushContent (contentType : String)
  deriving DecidableEq, Repr

def defaultUnlockMinutes : UInt32 := 30

structure Response where
  ok : Bool
  data : Option Json
  error : Option String

namespace Response

def okWith (data : Json) : Response := ⟨true, some data, none⟩

def okEmpty : Response := ⟨true, none, none⟩

def err (msg : String) : Response := ⟨false, none, some msg⟩

@[simp] theorem okWith_ok (data : Json) : (okWith data).ok = true := rfl
@[simp] theorem okEmpty_ok : okEmpty.ok = true := rfl
@[simp] theorem err_ok (msg : String) : (err msg).ok = false := rfl

/-- `serde_json::to_string`: absent `data` and `error` are skipped. -/
def toJson (r : Response) : Json :=
  .obj (("ok", .bool r.ok) ::
    ((r.data.map fun d => ("data", d)).toList ++ (r.error.map fun e => ("error", .str e)).toList))

/-- The text of a response, without the line feed. -/
def text (r : Response) : String := String.ofList r.toJson.encode

end Response

/-! ### Payloads -/

structure StatusPayload where
  tier : String
  unlockedApps : List String
  /-- 0 means no daily limit is configured for today. -/
  dailyBudgetMinutes : UInt32
  dailyUsedMinutes : UInt32
  dailyRemainingMinutes : UInt32
  inBlockedWindow : Bool
  activeApp : Option String
  deriving DecidableEq, Repr

structure AllowedPayload where
  allowed : Bool
  reason : Option String
  deriving DecidableEq, Repr

structure AppUsage where
  app : String
  minutes : UInt32
  deriving DecidableEq, Repr

structure SecurityEventSummary where
  occurredAt : String
  eventType : String
  severity : String
  detail : Option String
  deriving DecidableEq, Repr

structure ReportPayload where
  rangeDays : UInt32
  perApp : List AppUsage
  totalMinutesThisPeriod : UInt32
  totalMinutesPreviousPeriod : UInt32
  pinOverrideCount : UInt32
  securityEvents : List SecurityEventSummary
  deriving DecidableEq, Repr

/-- `Option<String>` as a JSON value. -/
def optStr : Option String → Json
  | none => .null
  | some s => .str s

def StatusPayload.toValue (p : StatusPayload) : Json :=
  .obj [("active_app", optStr p.activeApp),
    ("daily_budget_minutes", .num p.dailyBudgetMinutes.toNat),
    ("daily_remaining_minutes", .num p.dailyRemainingMinutes.toNat),
    ("daily_used_minutes", .num p.dailyUsedMinutes.toNat),
    ("in_blocked_window", .bool p.inBlockedWindow),
    ("tier", .str p.tier),
    ("unlocked_apps", .arr (p.unlockedApps.map .str))]

def AllowedPayload.toValue (p : AllowedPayload) : Json :=
  .obj (("allowed", .bool p.allowed) :: (p.reason.map fun r => ("reason", .str r)).toList)

def AppUsage.toValue (u : AppUsage) : Json :=
  .obj [("app", .str u.app), ("minutes", .num u.minutes.toNat)]

def SecurityEventSummary.toValue (e : SecurityEventSummary) : Json :=
  .obj [("detail", optStr e.detail), ("event_type", .str e.eventType),
    ("occurred_at", .str e.occurredAt), ("severity", .str e.severity)]

def ReportPayload.toValue (p : ReportPayload) : Json :=
  .obj [("per_app", .arr (p.perApp.map AppUsage.toValue)),
    ("pin_override_count", .num p.pinOverrideCount.toNat),
    ("range_days", .num p.rangeDays.toNat),
    ("security_events", .arr (p.securityEvents.map SecurityEventSummary.toValue)),
    ("total_minutes_previous_period", .num p.totalMinutesPreviousPeriod.toNat),
    ("total_minutes_this_period", .num p.totalMinutesThisPeriod.toNat)]

end OmarchyKids
