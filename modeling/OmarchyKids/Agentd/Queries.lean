import Mathlib
import OmarchyKids.Agentd.Db
import OmarchyKids.Lib.Utf8

/-!
# OmarchyKids.Agentd.Queries

What the queries of the usage log select.

Every "since" filter and every ordering of the log compares timestamps as texts,
octet by octet. The texts are ASCII, so that is their order as texts, and between
the years 0 and 9999 the order of the instants (`octets_lt_iff`). There each query
selects the rows at or after its bound (`queries_select_since`).
-/

namespace OmarchyKids

/-! ### Timestamps are ASCII -/

theorem ascii_pad (width n : Nat) : Utf8.Ascii (Digits.pad width n) := by
  induction width generalizing n with
  | zero => exact fun c hc => absurd hc List.not_mem_nil
  | succ width ih =>
      have hdigit : ∀ d < 10, (Nat.digitChar d).toNat < 0x80 := by decide
      refine Utf8.ascii_append.mpr ⟨ih _, fun c hc => ?_⟩
      rw [List.mem_singleton.mp hc]
      exact hdigit _ (Nat.mod_lt _ (by decide))

theorem ascii_fractionText (nanos : Nat) : Utf8.Ascii (fractionText nanos) := by
  unfold fractionText
  split
  · exact fun c hc => absurd hc List.not_mem_nil
  · split
    · exact Utf8.ascii_cons.mpr ⟨by decide, ascii_pad _ _⟩
    · split <;> exact Utf8.ascii_cons.mpr ⟨by decide, ascii_pad _ _⟩

theorem ascii_toRfc3339 {t : DateTime} (h : FourDigitYear t) :
    Utf8.Ascii (toRfc3339 t).toList := by
  have hoffset : Utf8.Ascii "+00:00".toList := by
    rw [show "+00:00".toList = ['+', '0', '0', ':', '0', '0'] from rfl]
    simp [Utf8.Ascii]
  unfold FourDigitYear yearOf at h
  unfold toRfc3339 yearText
  simp only [if_pos h, String.toList_ofList, List.append_assoc, List.cons_append]
  simp only [Utf8.ascii_append, Utf8.ascii_cons, ascii_pad, ascii_fractionText, hoffset, and_true,
    true_and]
  decide

/-- In years 0 to 9999 the octets of two timestamps compare as the instants do. -/
theorem octets_lt_iff {a b : DateTime} (ha : FourDigitYear a) (hb : FourDigitYear b) :
    Utf8.bytes (toRfc3339 a) < Utf8.bytes (toRfc3339 b) ↔ a < b := by
  rw [← toRfc3339_lt_iff ha hb, String.lt_iff]
  exact Utf8.charsBytes_lt_iff (ascii_toRfc3339 ha) (ascii_toRfc3339 hb)

theorem octets_eq_iff {a b : DateTime} (ha : FourDigitYear a) (hb : FourDigitYear b) :
    Utf8.bytes (toRfc3339 a) = Utf8.bytes (toRfc3339 b) ↔ a = b := by
  constructor
  · intro h
    have hab : ¬ a < b := by
      rw [← octets_lt_iff ha hb, h]
      exact List.lt_irrefl _
    have hba : ¬ b < a := by
      rw [← octets_lt_iff hb ha, h]
      exact List.lt_irrefl _
    exact le_antisymm (not_lt.mp hba) (not_lt.mp hab)
  · rintro rfl
    rfl

/-! ### Rows at or after a bound -/

namespace Db

/-- Every timestamp of the log that a query compares has a four-digit year. -/
structure FourDigitYears (db : Db) : Prop where
  sessions : ∀ r ∈ db.usageSessions, FourDigitYear r.startedAt
  overrides : ∀ r ∈ db.pinOverrides, FourDigitYear r.occurredAt
  events : ∀ r ∈ db.securityEvents, FourDigitYear r.occurredAt

/-- Completed sessions begun at or after `since`. -/
def completedFrom (since : DateTime) (rows : List UsageSession) : List UsageSession :=
  rows.filter fun r => decide (since ≤ r.startedAt) && r.endedAt.isSome

variable {db : Db} {since : DateTime}

theorem notBefore_eq {t : DateTime} (hsince : FourDigitYear since) (ht : FourDigitYear t) :
    notBefore since t = decide (since ≤ t) := by
  rw [Bool.eq_iff_iff, notBefore_iff hsince ht, decide_eq_true_iff]

theorem filter_completedSince {rows : List UsageSession} (hsince : FourDigitYear since)
    (hrows : ∀ r ∈ rows, FourDigitYear r.startedAt) :
    rows.filter (completedSince since) = completedFrom since rows := by
  refine List.filter_congr fun r hr => ?_
  rw [completedSince, notBefore_eq hsince (hrows r hr)]

theorem usedSecondsSince_eq (hsince : FourDigitYear since) (hdb : db.FourDigitYears) (sql : Sql)
    (app : Option String) :
    db.usedSecondsSince sql app since =
      sql.exec (.sumSeconds app since) (sumDurations
        ((completedFrom since db.usageSessions).filter fun r => app.all (r.appId == ·))) := by
  rw [usedSecondsSince, ← filter_completedSince hsince hdb.sessions, List.filter_filter]
  simp only [Bool.and_comm]

theorem usageByAppSince_eq (hsince : FourDigitYear since) (hdb : db.FourDigitYears) (sql : Sql) :
    db.usageByAppSince sql since =
      sql.exec .sumSecondsByApp
        (((((completedFrom since db.usageSessions).map UsageSession.appId).dedup.map fun app =>
          AppUsageRow.mk app (sumDurations
            ((completedFrom since db.usageSessions).filter fun r => r.appId == app))).insertionSort
          fun a b => b.seconds ≤ a.seconds)) := by
  rw [usageByAppSince, usageGroups, ← filter_completedSince hsince hdb.sessions]

theorem pinOverrideCountSince_eq (hsince : FourDigitYear since) (hdb : db.FourDigitYears)
    (sql : Sql) :
    db.pinOverrideCountSince sql since =
      (sql.exec .countPinOverrides
        (db.pinOverrides.filter fun r => decide (since ≤ r.occurredAt)).length).bind asCount := by
  rw [← List.filter_congr fun r hr => notBefore_eq hsince (hdb.overrides r hr)]
  rfl

theorem recentOverrideFailureCount_eq (hsince : FourDigitYear since) (hdb : db.FourDigitYears)
    (sql : Sql) (app : String) :
    db.recentOverrideFailureCount sql app since =
      (sql.exec .countOverrideFailures
        (db.securityEvents.filter fun r => r.eventType == "override_failed" &&
          r.detail == some app && decide (since ≤ r.occurredAt)).length).bind asCount := by
  rw [← List.filter_congr fun r hr =>
    congrArg (_ && _ && ·) (notBefore_eq hsince (hdb.events r hr))]
  rfl

theorem recentSecurityEvents_eq (hsince : FourDigitYear since) (hdb : db.FourDigitYears)
    (sql : Sql) :
    db.recentSecurityEvents sql since =
      sql.exec .selectSecurityEvents
        ((db.securityEvents.filter fun r => decide (since ≤ r.occurredAt)).insertionSort
          fun a b => b.occurredAt ≤ a.occurredAt) := by
  have horder : ∀ r ∈ db.securityEvents.filter (fun r => decide (since ≤ r.occurredAt)),
      ∀ r' ∈ db.securityEvents.filter (fun r => decide (since ≤ r.occurredAt)),
        (notBefore r'.occurredAt r.occurredAt = true ↔ r'.occurredAt ≤ r.occurredAt) := by
    intro r hr r' hr'
    exact notBefore_iff (hdb.events r' (List.mem_of_mem_filter hr'))
      (hdb.events r (List.mem_of_mem_filter hr))
  have hsorted := List.map_insertionSort
    (fun r r' : SecurityEvent => notBefore r'.occurredAt r.occurredAt = true)
    (fun r r' : SecurityEvent => r'.occurredAt ≤ r.occurredAt) id _ horder
  rw [List.map_id, List.map_id] at hsorted
  rw [recentSecurityEvents, List.filter_congr fun r hr => notBefore_eq hsince (hdb.events r hr),
    hsorted]

/-- Between the years 0 and 9999 timestamps compare, octet by octet, as the instants
they stand for; so every query selects the rows at or after its bound, and the
events come out newest first. -/
theorem queries_select_since {a b : DateTime} (ha : FourDigitYear a) (hb : FourDigitYear b)
    (hsince : FourDigitYear since) (hdb : db.FourDigitYears) (sql : Sql) (app : Option String)
    (failedApp : String) :
    ((Utf8.bytes (toRfc3339 a) < Utf8.bytes (toRfc3339 b) ↔ a < b) ∧
        (Utf8.bytes (toRfc3339 a) = Utf8.bytes (toRfc3339 b) ↔ a = b) ∧
        (notBefore a b = true ↔ ¬ Utf8.bytes (toRfc3339 b) < Utf8.bytes (toRfc3339 a))) ∧
      db.usedSecondsSince sql app since =
        sql.exec (.sumSeconds app since) (sumDurations
          ((completedFrom since db.usageSessions).filter fun r => app.all (r.appId == ·))) ∧
      db.usageByAppSince sql since =
        sql.exec .sumSecondsByApp
          (((((completedFrom since db.usageSessions).map UsageSession.appId).dedup.map fun app =>
            AppUsageRow.mk app (sumDurations
              ((completedFrom since db.usageSessions).filter fun r => r.appId == app))).insertionSort
            fun a b => b.seconds ≤ a.seconds)) ∧
      db.recentSecurityEvents sql since =
        sql.exec .selectSecurityEvents
          ((db.securityEvents.filter fun r => decide (since ≤ r.occurredAt)).insertionSort
            fun a b => b.occurredAt ≤ a.occurredAt) ∧
      db.pinOverrideCountSince sql since =
        (sql.exec .countPinOverrides
          (db.pinOverrides.filter fun r => decide (since ≤ r.occurredAt)).length).bind asCount ∧
      db.recentOverrideFailureCount sql failedApp since =
        (sql.exec .countOverrideFailures
          (db.securityEvents.filter fun r => r.eventType == "override_failed" &&
            r.detail == some failedApp && decide (since ≤ r.occurredAt)).length).bind asCount := by
  refine ⟨⟨octets_lt_iff ha hb, octets_eq_iff ha hb, ?_⟩, usedSecondsSince_eq hsince hdb sql app,
    usageByAppSince_eq hsince hdb sql, recentSecurityEvents_eq hsince hdb sql,
    pinOverrideCountSince_eq hsince hdb sql, recentOverrideFailureCount_eq hsince hdb sql failedApp⟩
  rw [notBefore_iff ha hb, octets_lt_iff hb ha, not_lt]

/-- A log with one row of each kind, the session begun 123 milliseconds after the
second at which the others happened. -/
def mixedLog : Db where
  usageSessions := [⟨"org.kde.gcompris", 4711, 1788220805123000000, some 1788220865000000000, some 59⟩]
  pinOverrides := [⟨1788220805000000000, "org.kde.gcompris", 30⟩]
  securityEvents := [⟨1788220805000000000, "override_failed", "routine", some "org.kde.gcompris"⟩]

theorem queries_select_since_mixedLog :
    ((Utf8.bytes (toRfc3339 1788220805000000000) < Utf8.bytes (toRfc3339 1788220805123000000) ↔
          (1788220805000000000 : DateTime) < 1788220805123000000) ∧
        (Utf8.bytes (toRfc3339 1788220805000000000) = Utf8.bytes (toRfc3339 1788220805123000000) ↔
          (1788220805000000000 : DateTime) = 1788220805123000000) ∧
        (notBefore 1788220805000000000 1788220805123000000 = true ↔
          ¬ Utf8.bytes (toRfc3339 1788220805123000000) <
            Utf8.bytes (toRfc3339 1788220805000000000))) ∧
      mixedLog.usedSecondsSince .ok none 1788220805000000000 =
        Sql.ok.exec (.sumSeconds none 1788220805000000000) (sumDurations
          ((completedFrom 1788220805000000000 mixedLog.usageSessions).filter fun r =>
            Option.all (r.appId == ·) none)) ∧
      mixedLog.usageByAppSince .ok 1788220805000000000 =
        Sql.ok.exec .sumSecondsByApp
          (((((completedFrom 1788220805000000000 mixedLog.usageSessions).map
              UsageSession.appId).dedup.map fun app =>
            AppUsageRow.mk app (sumDurations
              ((completedFrom 1788220805000000000 mixedLog.usageSessions).filter
                fun r => r.appId == app))).insertionSort
            fun a b => b.seconds ≤ a.seconds)) ∧
      mixedLog.recentSecurityEvents .ok 1788220805000000000 =
        Sql.ok.exec .selectSecurityEvents
          ((mixedLog.securityEvents.filter fun r =>
            decide ((1788220805000000000 : DateTime) ≤ r.occurredAt)).insertionSort
            fun a b => b.occurredAt ≤ a.occurredAt) ∧
      mixedLog.pinOverrideCountSince .ok 1788220805000000000 =
        (Sql.ok.exec .countPinOverrides (mixedLog.pinOverrides.filter fun r =>
          decide ((1788220805000000000 : DateTime) ≤ r.occurredAt)).length).bind asCount ∧
      mixedLog.recentOverrideFailureCount .ok "org.kde.gcompris" 1788220805000000000 =
        (Sql.ok.exec .countOverrideFailures
          (mixedLog.securityEvents.filter fun r => r.eventType == "override_failed" &&
            r.detail == some "org.kde.gcompris" &&
            decide ((1788220805000000000 : DateTime) ≤ r.occurredAt)).length).bind asCount :=
  queries_select_since (by decide) (by decide) (by decide)
    ⟨by simpa [mixedLog] using (by decide : FourDigitYear 1788220805123000000),
      by simpa [mixedLog] using (by decide : FourDigitYear 1788220805000000000),
      by simpa [mixedLog] using (by decide : FourDigitYear 1788220805000000000)⟩
    .ok none "org.kde.gcompris"

end Db

end OmarchyKids
