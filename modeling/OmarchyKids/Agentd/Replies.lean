import Mathlib
import OmarchyKids.Agentd.Daemon

/-!
# OmarchyKids.Agentd.Replies

Which response lines the daemon's own client can read.

The client reads with `read_line_bounded` and the 64 KiB cap; the daemon writes
whatever it has to say. A response comes back exactly if its line fits in the cap
(`receive_responseLine`), and `Request.ReplyFits` spells out what that means for
each request: how many octets the strings and numbers take that its reply carries
— for a report, those of every app and every security event of the period.
-/

namespace OmarchyKids

open Handlers Daemon

/-! ### Reading a response line -/

theorem getLast_toJson (r : Response) :
    (Utf8.charsBytes r.toJson.encode).getLast? = some 125 := by
  have hbrace : Utf8.charsBytes ['}'] = [125] := by decide
  rw [Response.toJson, Json.encode, Utf8.charsBytes_append, hbrace, List.getLast?_concat]

/-- However the line is split into chunks, the client gets the response if the
line fits in the cap, and an error otherwise. -/
theorem receive_responseLine {fromStr : String → Option Response} {r : Response}
    {chunks : List (List UInt8)} (hserde : fromStr r.text = some r)
    (hchunks : chunks.flatten = responseLine r) :
    receive fromStr ⟨chunks, none⟩ =
      if r.toJson.octets + 1 ≤ maxLineBytes then .ok r
      else .error (.io (.lineTooLong maxLineBytes)) := by
  have hlf : (10 : UInt8) ∉ Utf8.charsBytes r.toJson.encode := fun hmem =>
    Json.newline_not_mem_encode r.toJson (Utf8.mem_charsBytes_of_ascii (by decide) hmem)
  have hcr : (Utf8.charsBytes r.toJson.encode).getLast? ≠ some 13 := by
    rw [getLast_toJson]
    decide
  have htext : Utf8.decode (Utf8.charsBytes r.toJson.encode) = some r.text := by
    rw [← Utf8.bytes_ofList, Utf8.decode_bytes]
    rfl
  have hread := readLineBounded_line maxLineBytes hchunks hlf hcr htext
  rw [Json.length_encode] at hread
  unfold receive
  rw [hread]
  by_cases hfit : r.toJson.octets + 1 ≤ maxLineBytes
  · simp only [if_pos hfit, hserde]
  · simp only [if_neg hfit]

/-! ### Octets of a response -/

open Json (octets quotedOctets numOctets)

/-- An error text leaves room for the rest of its line. -/
def ErrFits (text : String) : Prop := quotedOctets text + 22 ≤ maxLineBytes

theorem octets_okEmpty : octets Response.okEmpty.toJson = 11 := by decide

theorem octets_okWith (data : Json) : octets (Response.okWith data).toJson = octets data + 19 := by
  have hok : quotedOctets "ok" = 4 ∧ quotedOctets "data" = 6 := by decide
  simp only [Response.okWith, Response.toJson, Option.map_some, Option.map_none, Option.toList_some,
    Option.toList_none, List.append_nil, octets, Json.fieldsOctets, hok]
  omega

theorem octets_err (text : String) :
    octets (Response.err text).toJson = quotedOctets text + 21 := by
  have hok : quotedOctets "ok" = 4 ∧ quotedOctets "error" = 7 := by decide
  simp only [Response.err, Response.toJson, Option.map_some, Option.map_none, Option.toList_some,
    Option.toList_none, List.nil_append, octets, Json.fieldsOctets, hok]
  omega

theorem err_fits_iff (text : String) :
    octets (Response.err text).toJson + 1 ≤ maxLineBytes ↔ ErrFits text := by
  rw [octets_err, ErrFits]

theorem okEmpty_fits : octets Response.okEmpty.toJson + 1 ≤ maxLineBytes := by
  rw [octets_okEmpty]
  decide

/-! ### Reports -/

/-- The octets of one app's usage and the comma after it. -/
def usageOctets (r : Db.AppUsageRow) : Nat :=
  quotedOctets r.app + numOctets (Budget.minutesOf r.seconds).toNat + 20

/-- The octets of one security event and the comma after it. -/
def eventOctets (e : SecurityEvent) : Nat :=
  octets (optStr e.detail) + quotedOctets e.eventType + quotedOctets (toRfc3339 e.occurredAt) +
    quotedOctets e.severity + 53

/-- Whole minutes of the completed sessions begun since `since`. -/
def minutesSince (db : Db) (since : DateTime) : UInt32 :=
  Budget.minutesOf (Db.sumDurations (db.usageSessions.filter (Db.completedSince since)))

/-- The security events a report shows. -/
def reportedEvents (env : Env) (db : Db) (since : DateTime) : List SecurityEvent :=
  if env.sql .selectSecurityEvents = none then
    db.securityEvents.filter fun e => notBefore since e.occurredAt
  else []

/-- The octets of a report's payload, from the rows of the log. -/
def reportOctets (env : Env) (db : Db) (rangeDays : Int) : Nat :=
  let since := env.nowUtc - daysDelta rangeDays
  let prevSince := env.nowUtc - daysDelta (rangeDays * 2)
  (((Db.usageGroups db since).map usageOctets).sum - 1) +
    (((reportedEvents env db since).map eventOctets).sum - 1) +
    numOctets ((db.pinOverrideCountSince env.sql since).toOption.getD 0).toNat +
    numOctets (minutesSince db since).toNat +
    numOctets (saturatingSub (minutesSince db prevSince) (minutesSince db since)).toNat + 134

theorem octets_appUsage (r : Db.AppUsageRow) :
    octets (AppUsage.toValue ⟨r.app, Budget.minutesOf r.seconds⟩) + 1 = usageOctets r := by
  have hkeys : quotedOctets "app" = 5 ∧ quotedOctets "minutes" = 9 := by decide
  simp only [AppUsage.toValue, octets, Json.fieldsOctets, hkeys, usageOctets]
  omega

theorem octets_securityEvent (e : SecurityEvent) :
    octets (SecurityEventSummary.toValue
      ⟨toRfc3339 e.occurredAt, e.eventType, e.severity, e.detail⟩) + 1 = eventOctets e := by
  have hkeys : quotedOctets "detail" = 8 ∧ quotedOctets "event_type" = 12 ∧
      quotedOctets "occurred_at" = 13 ∧ quotedOctets "severity" = 10 := by decide
  simp only [SecurityEventSummary.toValue, octets, Json.fieldsOctets, hkeys, eventOctets]
  omega

/-- The octets of a payload whose lists hold, in any order, the given rows. -/
theorem octets_report {p : ReportPayload} {groups : List Db.AppUsageRow}
    {events : List SecurityEvent}
    (hgroups : (p.perApp.map fun u => octets u.toValue + 1).Perm (groups.map usageOctets))
    (hevents : (p.securityEvents.map fun e => octets e.toValue + 1).Perm (events.map eventOctets)) :
    octets p.toValue = ((groups.map usageOctets).sum - 1) + ((events.map eventOctets).sum - 1) +
      numOctets p.pinOverrideCount.toNat + numOctets p.rangeDays.toNat +
      numOctets p.totalMinutesThisPeriod.toNat + numOctets p.totalMinutesPreviousPeriod.toNat + 133 := by
  have hkeys : quotedOctets "per_app" = 9 ∧ quotedOctets "pin_override_count" = 20 ∧
      quotedOctets "range_days" = 12 ∧ quotedOctets "security_events" = 17 ∧
      quotedOctets "total_minutes_previous_period" = 31 ∧
      quotedOctets "total_minutes_this_period" = 27 := by decide
  have happs : Json.itemsOctets (p.perApp.map AppUsage.toValue) = (groups.map usageOctets).sum - 1 := by
    rw [Json.itemsOctets_eq_sum, List.map_map, ← hgroups.sum_eq]
    rfl
  have hevts : Json.itemsOctets (p.securityEvents.map SecurityEventSummary.toValue) =
      (events.map eventOctets).sum - 1 := by
    rw [Json.itemsOctets_eq_sum, List.map_map, ← hevents.sum_eq]
    rfl
  simp only [ReportPayload.toValue, octets, Json.fieldsOctets, hkeys, happs, hevts]
  omega

/-- The payload of a report, where the log can be read. -/
def reportOf (env : Env) (db : Db) (rangeDays : Int) : ReportPayload :=
  let since := env.nowUtc - daysDelta rangeDays
  let prevSince := env.nowUtc - daysDelta (rangeDays * 2)
  { rangeDays := UInt32.ofInt rangeDays
    perApp := ((Db.usageGroups db since).insertionSort fun a b => b.seconds ≤ a.seconds).map
      fun r => ⟨r.app, Budget.minutesOf r.seconds⟩
    totalMinutesThisPeriod := minutesSince db since
    totalMinutesPreviousPeriod := saturatingSub (minutesSince db prevSince) (minutesSince db since)
    pinOverrideCount := (db.pinOverrideCountSince env.sql since).toOption.getD 0
    securityEvents := ((db.recentSecurityEvents env.sql since).toOption.getD []).map fun r =>
      ⟨toRfc3339 r.occurredAt, r.eventType, r.severity, r.detail⟩ }

/-- A report fails on the first of its three sums that cannot be read. -/
theorem reportPayload_eq (env : Env) (db : Db) {week : Bool} {rangeDays : Int}
    (hrange : (if week then 7 else 1) = rangeDays) :
    reportPayload env db week =
      match env.sql .sumSecondsByApp with
      | some e => .error ("failed to read usage: " ++ e)
      | none =>
          match env.sql (.sumSeconds none (env.nowUtc - daysDelta rangeDays)) with
          | some e => .error ("failed to sum usage: " ++ e)
          | none =>
              match env.sql (.sumSeconds none (env.nowUtc - daysDelta (rangeDays * 2))) with
              | some e => .error ("failed to sum usage: " ++ e)
              | none => .ok (reportOf env db rangeDays) := by
  unfold reportPayload Db.usageByAppSince Db.usedSecondsSince Sql.exec
  simp only [hrange]
  cases env.sql .sumSecondsByApp with
  | some e => rfl
  | none =>
      cases env.sql (.sumSeconds none (env.nowUtc - daysDelta rangeDays)) with
      | some e => rfl
      | none =>
          cases env.sql (.sumSeconds none (env.nowUtc - daysDelta (rangeDays * 2))) with
          | some e => rfl
          | none =>
              simp only [Option.all_none, Bool.and_true]
              rfl

/-- The octets of a report are those of the rows it shows. -/
theorem octets_reportOf (env : Env) (db : Db) (week : Bool) :
    octets (reportOf env db (if week then 7 else 1)).toValue =
      reportOctets env db (if week then 7 else 1) := by
  have hdays : numOctets (UInt32.ofInt (if week then 7 else 1)).toNat = 1 := by
    cases week <;> decide
  generalize hrange : (if week then (7 : Int) else 1) = rangeDays at hdays ⊢
  have hgroups : ((reportOf env db rangeDays).perApp.map fun u => octets u.toValue + 1).Perm
      ((Db.usageGroups db (env.nowUtc - daysDelta rangeDays)).map usageOctets) := by
    rw [reportOf, List.map_map]
    simp only [Function.comp_def, octets_appUsage]
    exact (List.perm_insertionSort _ _).map _
  have hevents : ((reportOf env db rangeDays).securityEvents.map fun e => octets e.toValue + 1).Perm
      ((reportedEvents env db (env.nowUtc - daysDelta rangeDays)).map eventOctets) := by
    rw [reportOf, List.map_map]
    simp only [Function.comp_def, octets_securityEvent]
    unfold Db.recentSecurityEvents Sql.exec reportedEvents
    cases env.sql .selectSecurityEvents with
    | some e => exact .nil
    | none => exact (List.perm_insertionSort _ _).map _
  rw [octets_report hgroups hevents]
  unfold reportOctets
  simp only [reportOf, hdays]
  omega

/-! ### Status -/

/-- The octets of a status payload, from the state. -/
def statusOctets (p : Platform) (env : Env) (s : State) : Nat :=
  let weekday := (p.zone.toLocal env.nowLocal).weekday
  let midnight := Budget.localMidnightUtc p.zone env.nowLocal
  let used :=
    (Budget.computeDailyUsedMinutes env.sql s.db s.active midnight env.nowUtc).toOption.getD 0
  let budget := (s.config.dailyTotalMinutesToday weekday).getD 0
  octets (optStr ((firstActive env s.active).map ActiveSession.app)) + numOctets budget.toNat +
    numOctets (saturatingSub budget used).toNat + numOctets used.toNat +
    (if Budget.inBlockedWindow p s.config env.nowLocal then 4 else 5) +
    quotedOctets s.config.tier.current +
    ((s.config.effectiveLauncherTiles.map fun t => quotedOctets t.desktopId + 1).sum - 1) + 136

theorem octets_handleStatus (p : Platform) (env : Env) (s : State) :
    octets (handleStatus p env s).toJson = statusOctets p env s + 19 := by
  have hkeys : quotedOctets "active_app" = 12 ∧ quotedOctets "daily_budget_minutes" = 22 ∧
      quotedOctets "daily_remaining_minutes" = 25 ∧ quotedOctets "daily_used_minutes" = 20 ∧
      quotedOctets "in_blocked_window" = 19 ∧ quotedOctets "tier" = 6 ∧
      quotedOctets "unlocked_apps" = 15 := by decide
  unfold handleStatus statusOctets
  rw [octets_okWith]
  cases Budget.inBlockedWindow p s.config env.nowLocal <;>
    simp only [StatusPayload.toValue, octets, Json.fieldsOctets, hkeys, Json.itemsOctets_eq_sum,
      List.map_map, Function.comp_def, if_true, Bool.false_eq_true, if_false] <;>
    omega

/-! ### When a reply fits -/

/-- An edit that passed its check is answered with a text only if storage fails. -/
def StorageFits (p : Platform) (env : Env) : Prop :=
  match env.saveError p, env.renderError p with
  | some e, _ => ErrFits ("failed to save config: " ++ e)
  | none, some e => ErrFits ("failed to render launcher tiles: " ++ e)
  | none, none => True

/-- Whether the reply to a request fits in the client's cap, by what it has to
carry: the status of the tiles, the rows a report shows, or an error text made
of the request's own strings or of an error of the system. -/
def Request.ReplyFits (p : Platform) (env : Env) (s : State) : Request → Prop
  | status => statusOctets p env s + 20 ≤ maxLineBytes
  | setTier tier apps =>
      if tier ∈ knownTiers then
        match apps.bind (unresolvedTile env.fs) with
        | some tile => ErrFits ("refusing to set tier: '" ++ tile.desktopId ++
            "' does not resolve to an installed application")
        | none => StorageFits p env
      else ErrFits ("unknown tier '" ++ tier ++ "'")
  | unlock app _ =>
      if unlockIsPermitted app false env.allowlist.load then StorageFits p env
      else ErrFits ("'" ++ app ++ "' is not on the parent-curated unlockable-apps list (" ++
        unlockableAppsPath p.home ++ ")")
  | override _ _ => StorageFits p env
  | overrideFailed _ =>
      ∀ e, env.sql .insertSecurityEvent = some e → ErrFits ("failed to log security event: " ++ e)
  | wrapperStart _ _ =>
      ∀ e, env.sql .insertSession = some e → ErrFits ("failed to log session start: " ++ e)
  | wrapperStop app pid _ =>
      ∀ e, s.db.endSession env.sql app pid env.nowUtc = .error e →
        ErrFits ("failed to log session stop: " ++ e)
  | report week =>
      let rangeDays : Int := if week then 7 else 1
      match env.sql .sumSecondsByApp with
      | some e => ErrFits ("failed to read usage: " ++ e)
      | none =>
          match env.sql (.sumSeconds none (env.nowUtc - daysDelta rangeDays)),
              env.sql (.sumSeconds none (env.nowUtc - daysDelta (rangeDays * 2))) with
          | some e, _ => ErrFits ("failed to sum usage: " ++ e)
          | none, some e => ErrFits ("failed to sum usage: " ++ e)
          | none, none => reportOctets env s.db rangeDays + 20 ≤ maxLineBytes
  | _ => True

theorem saveAndRender_error (p : Platform) (env : Env) (s : State) :
    (saveAndRender p env s).2 =
      match env.saveError p, env.renderError p with
      | some e, _ => some ("failed to save config: " ++ e)
      | none, some e => some ("failed to render launcher tiles: " ++ e)
      | none, none => none := by
  unfold saveAndRender
  simp only [State.save_eq, State.render_eq]
  cases env.saveError p with
  | some e => rfl
  | none => cases env.renderError p <;> rfl

/-- The reply after storage. -/
theorem storage_fits_iff {p : Platform} {env : Env} {s : State} {r : Response}
    (h : r = match (saveAndRender p env s).2 with
      | some e => .err e
      | none => .okEmpty) :
    octets r.toJson + 1 ≤ maxLineBytes ↔ StorageFits p env := by
  subst h
  rw [saveAndRender_error]
  unfold StorageFits
  cases env.saveError p with
  | some e => exact err_fits_iff _
  | none =>
      cases env.renderError p with
      | some e => exact err_fits_iff _
      | none => exact iff_of_true okEmpty_fits trivial

theorem handleUnlock_reply (p : Platform) (env : Env) (s : State) (app : String)
    (minutes : Option UInt32) (viaOverride : Bool) :
    (handleUnlock p env s app minutes viaOverride).2 =
      if unlockIsPermitted app viaOverride env.allowlist.load then
        match (saveAndRender p env { s with
          config := s.config.pushUnlock
            (newUnlock env app (minutes.getD defaultUnlockMinutes) viaOverride) }).2 with
        | some e => .err e
        | none => .okEmpty
      else .err ("'" ++ app ++ "' is not on the parent-curated unlockable-apps list (" ++
        unlockableAppsPath p.home ++ ")") := by
  unfold handleUnlock
  split
  · dsimp only
    rcases saveAndRender p env _ with ⟨s', _ | e⟩
    · dsimp only
      split
      · split <;> rfl
      · rfl
    · rfl
  · rfl

/-- The answers of `checkAllowed` are short. -/
theorem checkAllowed_fits (p : Platform) (env : Env) (s : State) (app : String) :
    octets (Response.okWith (checkAllowed p env s app).toValue).toJson + 1 ≤ maxLineBytes := by
  rw [octets_okWith]
  unfold checkAllowed
  dsimp only
  split_ifs <;> decide

/-- A reply's line fits exactly when the request's condition holds. -/
theorem reply_fits_iff (p : Platform) (env : Env) (s : State) (req : Request) :
    octets (dispatch p env s req).2.toJson + 1 ≤ maxLineBytes ↔ req.ReplyFits p env s := by
  cases req with
  | ping => exact iff_of_true okEmpty_fits trivial
  | status =>
      rw [show (dispatch p env s .status).2 = handleStatus p env s from rfl, octets_handleStatus]
      exact Iff.rfl
  | setTier tier apps =>
      unfold dispatch handleSetTier Request.ReplyFits
      by_cases htier : tier ∈ knownTiers
      · simp only [htier, not_true, if_false, if_true]
        cases apps.bind (unresolvedTile env.fs) with
        | some tile => exact err_fits_iff _
        | none =>
            refine storage_fits_iff (s := { s with config := s.config.switchTier tier apps }) ?_
            dsimp only
            split <;> simp_all
      · simp only [htier, not_false_eq_true, if_true, if_false]
        exact err_fits_iff _
  | unlock app minutes =>
      simp only [dispatch, Request.ReplyFits, handleUnlock_reply]
      split
      · exact storage_fits_iff rfl
      · exact err_fits_iff _
  | override app minutes =>
      simp only [dispatch, Request.ReplyFits, handleUnlock_reply]
      exact storage_fits_iff rfl
  | overrideFailed app =>
      unfold dispatch handleOverrideFailed Db.insertSecurityEvent Sql.exec Request.ReplyFits
      cases env.sql .insertSecurityEvent with
      | some e => simpa using err_fits_iff _
      | none =>
          refine iff_of_true okEmpty_fits ?_
          intro e he
          cases he
  | report week =>
      simp only [dispatch, handleReport, Request.ReplyFits]
      generalize hrange : (if week then (7 : Int) else 1) = rangeDays
      rw [reportPayload_eq env s.db hrange]
      cases env.sql .sumSecondsByApp with
      | some e => exact err_fits_iff _
      | none =>
          cases env.sql (.sumSeconds none (env.nowUtc - daysDelta rangeDays)) with
          | some e => exact err_fits_iff _
          | none =>
              cases env.sql (.sumSeconds none (env.nowUtc - daysDelta (rangeDays * 2))) with
              | some e => exact err_fits_iff _
              | none =>
                  dsimp only
                  rw [octets_okWith, ← hrange, octets_reportOf]
  | wrapperAuthorize app => exact iff_of_true (checkAllowed_fits p env s app) trivial
  | wrapperPoll app pid => exact iff_of_true (checkAllowed_fits p env s app) trivial
  | wrapperStart app pid =>
      unfold dispatch handleWrapperStart Db.startSession Sql.exec Request.ReplyFits
      dsimp only
      cases env.sql .insertSession with
      | some e => simpa using err_fits_iff _
      | none =>
          refine iff_of_true okEmpty_fits ?_
          intro e he
          cases he
  | wrapperStop app pid _ =>
      unfold dispatch handleWrapperStop Request.ReplyFits
      dsimp only
      cases s.db.endSession env.sql app pid env.nowUtc with
      | error e => simpa using err_fits_iff _
      | ok db =>
          refine iff_of_true okEmpty_fits ?_
          intro e he
          cases he
  | pushContent _ =>
      refine iff_of_true ?_ trivial
      rw [show (dispatch p env s (.pushContent _)).2 = .err _ from rfl, octets_err]
      decide

/-! ### Replies over a run -/

/-- What is written on a connection whose line decodes to a request. -/
theorem handleConnection_request {decode : String → Except String Request} {p : Platform}
    {env : Env} {s : State} {input : Stream} {line : String} {req : Request}
    (hline : (readLineBounded input maxLineBytes).1 = .ok (some line))
    (hreq : decode line = .ok req) :
    (handleConnection decode p env s input).2 = responseLine (dispatch p env s req).2 := by
  unfold handleConnection
  rw [hline]
  dsimp only
  rw [hreq]

/-- At every point of every run, the reply to a further request is read back by
the client exactly if the request's condition holds there. -/
theorem reply_is_read_iff (p : Platform) (s₀ : State) (past : List (Env × Event)) {env : Env}
    {req : Request} {decode : String → Except String Request} {fromStr : String → Option Response}
    {input : Stream} {line : String} {chunks : List (List UInt8)}
    (hline : (readLineBounded input maxLineBytes).1 = .ok (some line))
    (hreq : decode line = .ok req)
    (hchunks : chunks.flatten =
      (handleConnection decode p env (Runs.run (step p) s₀ past) input).2)
    (hserde : fromStr (dispatch p env (Runs.run (step p) s₀ past) req).2.text =
      some (dispatch p env (Runs.run (step p) s₀ past) req).2) :
    receive fromStr ⟨chunks, none⟩ = .ok (dispatch p env (Runs.run (step p) s₀ past) req).2 ↔
      req.ReplyFits p env (Runs.run (step p) s₀ past) := by
  rw [handleConnection_request hline hreq] at hchunks
  rw [receive_responseLine hserde hchunks, ← reply_fits_iff]
  constructor
  · intro hread
    by_contra hlong
    rw [if_neg hlong] at hread
    cases hread
  · intro hfit
    rw [if_pos hfit]

/-- Five minutes of puzzles, and a rejected authentication prompt. -/
def loggedNight : List (Env × Event) :=
  [(minutesLater 0, .request (.wrapperStart "org.kde.gcompris" 4711)),
    (minutesLater 5, .request (.wrapperStop "org.kde.gcompris" 4711 (some 0))),
    (minutesLater 6, .request (.overrideFailed "org.gnome.Terminal"))]

/-- The request for the week's report. -/
def reportLine : String := "\x7b\"cmd\":\"report\",\"week\":true\x7d"

def reportInput : Stream := ⟨[Utf8.bytes reportLine ++ [10]], none⟩

/-- `serde_json` on the request line. -/
def decodeReport (line : String) : Except String Request :=
  if line = reportLine then .ok (.report true) else .error "unknown variant"

/-- The report, with its one app and its one event, comes in two chunks. -/
theorem reply_is_read_iff_report :
    let s := Runs.run (step samplePlatform) sampleState loggedNight
    let r := (dispatch samplePlatform (minutesLater 7) s (.report true)).2
    receive (fun text => if text = r.text then some r else none)
        ⟨[(responseLine r).take 64, (responseLine r).drop 64], none⟩ = .ok r ↔
      (Request.report true).ReplyFits samplePlatform (minutesLater 7) s := by
  intro s r
  have hline : (readLineBounded reportInput maxLineBytes).1 = .ok (some reportLine) := by
    have hchunks : reportInput.chunks.flatten = Utf8.bytes reportLine ++ [10] := List.append_nil _
    have hread := readLineBounded_line maxLineBytes hchunks (by decide +kernel) (by decide +kernel)
      (Utf8.decode_bytes reportLine)
    rw [if_pos (by decide +kernel)] at hread
    exact hread
  have hreq : decodeReport reportLine = .ok (.report true) := if_pos rfl
  refine reply_is_read_iff samplePlatform sampleState loggedNight hline hreq ?_ (if_pos rfl)
  rw [handleConnection_request hline hreq]
  simp only [List.flatten_cons, List.flatten_nil, List.append_nil]
  exact List.take_append_drop 64 _

/-! ### An unreadable report -/

/-- A desktop id of 40000 letters. -/
def longApp : String := String.ofList (List.replicate 40000 'a')

theorem quotedOctets_letters (n : Nat) :
    quotedOctets (String.ofList (List.replicate n 'a')) = n + 2 := by
  have hletter : ((Json.escapeChar 'a').map Char.utf8Size).sum = 1 := by decide
  rw [quotedOctets, Json.escapedOctets, String.toList_ofList, List.map_replicate, hletter,
    List.sum_replicate_nat, Nat.mul_one]

def twoFailures : List (Env × Event) :=
  [(sampleEnv, .request (.overrideFailed longApp)), (sampleEnv, .request (.overrideFailed longApp))]

theorem handleOverrideFailed_events {env : Env} {s : State} {app : String}
    (hsql : env.sql .insertSecurityEvent = none) :
    ∃ severity, (handleOverrideFailed env s app).1.db.securityEvents =
      s.db.securityEvents ++ [⟨env.nowUtc, "override_failed", severity, some app⟩] := by
  unfold handleOverrideFailed Db.insertSecurityEvent Sql.exec
  simp only [hsql]
  exact ⟨_, rfl⟩

/-- Two rejected authentication prompts for an app with a long name, and the
weekly report can no longer be read. -/
theorem long_events_make_report_unreadable :
    let s := Runs.run (step samplePlatform) sampleState twoFailures
    let r := (dispatch samplePlatform sampleEnv s (.report true)).2
    receive (fun _ => some r) ⟨[responseLine r], none⟩ ≠ .ok r := by
  intro s r hread
  obtain ⟨first, hfirst⟩ := @handleOverrideFailed_events sampleEnv sampleState longApp rfl
  obtain ⟨second, hsecond⟩ := @handleOverrideFailed_events sampleEnv
    (handleOverrideFailed sampleEnv sampleState longApp).1 longApp rfl
  rw [hfirst] at hsecond
  have hevents : s.db.securityEvents =
      [⟨sampleEnv.nowUtc, "override_failed", first, some longApp⟩,
        ⟨sampleEnv.nowUtc, "override_failed", second, some longApp⟩] := hsecond
  rw [receive_responseLine rfl (List.append_nil _)] at hread
  have hfits : Request.ReplyFits samplePlatform sampleEnv s (.report true) := by
    refine (reply_fits_iff samplePlatform sampleEnv s (.report true)).mp ?_
    by_contra hlong
    rw [if_neg hlong] at hread
    cases hread
  have hoctets : reportOctets sampleEnv s.db 7 + 20 ≤ maxLineBytes := hfits
  have hrecent : notBefore (sampleEnv.nowUtc - daysDelta 7) sampleEnv.nowUtc = true := by decide
  have hreported : reportedEvents sampleEnv s.db (sampleEnv.nowUtc - daysDelta 7) =
      s.db.securityEvents := by
    rw [reportedEvents, if_pos (show sampleEnv.sql .selectSecurityEvents = none from rfl), hevents]
    simp [hrecent]
  have hlong : quotedOctets longApp = 40002 := quotedOctets_letters 40000
  have hsum : 80000 ≤ ((reportedEvents sampleEnv s.db (sampleEnv.nowUtc - daysDelta 7)).map
      eventOctets).sum - 1 := by
    rw [hreported, hevents]
    simp only [List.map_cons, List.map_nil, List.sum_cons, List.sum_nil, eventOctets, optStr, octets,
      hlong]
    omega
  unfold reportOctets maxLineBytes at hoctets
  dsimp only at hoctets
  omega

end OmarchyKids
