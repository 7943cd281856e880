import Mathlib
import OmarchyKids.Agentd.Replies
import OmarchyKids.Lib.HighWater

/-!
# OmarchyKids.Control.Notifications

Desktop notifications of severe security events.

Polls of a host overlap and end in any order, and each brings the whole week's
events again. The Control Center keeps one text per host, the newest
`occurred_at` it has met, and notifies what is newer. The reports of one host are
snapshots of one log that grows at its end, so the mark picks out exactly what no
earlier report held (`severe_events_notified_once`).
-/

namespace OmarchyKids.MainWindow

/-! ### Applying a report -/

/-- `lastNotifiedAt_`: host name to the newest `occurred_at` met. -/
abbrev LastNotified := AList fun _ : String => String

def occurredAt (ev : Json) : String := Json.toText (Json.member "occurred_at" (some ev))

def isSevere (ev : Json) : Bool := Json.toText (Json.member "severity" (some ev)) == "severe"

/-- The arguments of `notify-send` for an event. -/
def notifySend (hostName : String) (ev : Json) : List String :=
  let detail := Json.member "detail" (some ev)
  ["Omarchy Kids: " ++ hostName,
    Json.toText (Json.member "event_type" (some ev)) ++
      if Json.isNull detail then "" else " — " ++ Json.toText detail]

/-- One turn of the loop over the events: the newest `occurred_at` so far, and the
events notified so far. -/
def notifyEvent (firstPoll : Bool) (newestSeen : String) (acc : String × List Json) (ev : Json) :
    String × List Json :=
  if !isSevere ev then acc
  else
    let newest := if acc.1 < occurredAt ev then occurredAt ev else acc.1
    if firstPoll || decide (occurredAt ev ≤ newestSeen) then (newest, acc.2)
    else (newest, acc.2 ++ [ev])

/-- The events of a report, if it is a successful one. -/
def reportEvents (doc : Option Json) : Option (List Json) :=
  if Json.isObject doc && Json.toBool (Json.member "ok" doc) then
    some (Json.toArray (Json.member "security_events" (Json.member "data" doc)))
  else none

/-- The marks after a report of a host, and the events `notify-send` is started
for. `fromJson` is `QJsonDocument::fromJson`. -/
def notifySevereEvents (fromJson : String → Option Json) (hostName reportJson : String)
    (lastNotifiedAt : LastNotified) : LastNotified × List Json :=
  match reportEvents (fromJson reportJson) with
  | none => (lastNotifiedAt, [])
  | some events =>
      -- the first poll of a host only learns where "already seen" starts
      let newestSeen := (lastNotifiedAt.lookup hostName).getD ""
      let (newest, notified) := events.foldl
        (notifyEvent (lastNotifiedAt.lookup hostName).isNone newestSeen) (newestSeen, [])
      (lastNotifiedAt.insert hostName newest, notified)

/-! ### One mark per host -/

/-- The loop raises the mark by the severe events and picks those above it. -/
theorem foldl_notifyEvent (firstPoll : Bool) (newestSeen : String) (events : List Json)
    (acc : String × List Json) :
    events.foldl (notifyEvent firstPoll newestSeen) acc =
      (HighWater.raise occurredAt acc.1 (events.filter isSevere),
        acc.2 ++ if firstPoll then [] else
          HighWater.fresh occurredAt newestSeen (events.filter isSevere)) := by
  induction events generalizing acc with
  | nil => cases firstPoll <;> simp [HighWater.raise, HighWater.fresh]
  | cons ev events ih =>
      rw [List.foldl_cons, ih, notifyEvent]
      cases hsevere : isSevere ev with
      | false => simp [hsevere]
      | true =>
          have hmax : (if acc.1 < occurredAt ev then occurredAt ev else acc.1) =
              max acc.1 (occurredAt ev) := by
            rw [max_def_lt]
          have hraise : HighWater.raise occurredAt acc.1 ((ev :: events).filter isSevere) =
              HighWater.raise occurredAt (max acc.1 (occurredAt ev)) (events.filter isSevere) := by
            rw [List.filter_cons_of_pos hsevere]
            rfl
          rw [hraise, List.filter_cons_of_pos hsevere]
          simp only [Bool.not_true, Bool.false_eq_true, if_false, hmax]
          cases firstPoll with
          | true => simp
          | false =>
              by_cases hnew : newestSeen < occurredAt ev
              · rw [HighWater.fresh_cons_of_lt hnew]
                simp [not_le.mpr hnew]
              · rw [HighWater.fresh_cons_of_le (not_lt.mp hnew)]
                simp [not_lt.mp hnew]

/-- For one host, a report is one batch of severe events. -/
theorem notifySevereEvents_mark {fromJson : String → Option Json} {hostName reportJson : String}
    {events : List Json} (hevents : reportEvents (fromJson reportJson) = some events)
    (seen : LastNotified) :
    (notifySevereEvents fromJson hostName reportJson seen).1.lookup hostName =
        HighWater.receive occurredAt "" (seen.lookup hostName) (events.filter isSevere) ∧
      (notifySevereEvents fromJson hostName reportJson seen).2 =
        HighWater.deliver occurredAt (seen.lookup hostName) (events.filter isSevere) := by
  rw [notifySevereEvents, hevents]
  simp only [foldl_notifyEvent, AList.lookup_insert, List.nil_append]
  cases seen.lookup hostName with
  | none => exact ⟨rfl, rfl⟩
  | some mark => exact ⟨rfl, rfl⟩

/-! ### Snapshots of one log -/

/-- An event as a report shows it. -/
def eventJson (e : SecurityEvent) : Json :=
  (SecurityEventSummary.mk (toRfc3339 e.occurredAt) e.eventType e.severity e.detail).toValue

theorem isSevere_eventJson (e : SecurityEvent) :
    isSevere (eventJson e) = (e.severity == "severe") := rfl

example : notifySend "Lena" (eventJson ⟨0, "override_failed", "severe", some "org.kde.krita"⟩) =
    ["Omarchy Kids: Lena", "override_failed — org.kde.krita"] := by decide

/-- What a prefix of the log holds is older than what follows it. -/
theorem older_of_mem_take {log : List SecurityEvent}
    (hlog : (log.map fun e => toRfc3339 e.occurredAt).Pairwise (· < ·)) {n i : Nat}
    {e e' : SecurityEvent} (he' : e' ∈ log.take n) (hi : log[i]? = some e) (hn : n ≤ i) :
    toRfc3339 e'.occurredAt < toRfc3339 e.occurredAt := by
  obtain ⟨j, hj, rfl⟩ := List.mem_take_iff_getElem.mp he'
  obtain ⟨hlength, rfl⟩ := List.getElem?_eq_some_iff.mp hi
  have hji : j < i := lt_of_lt_of_le (lt_of_lt_of_le hj (min_le_left _ _)) hn
  exact List.pairwise_iff_getElem.mp (List.pairwise_map.mp hlog) j i _ hlength hji

/-- A weekly report of a daemon whose log is `old`, which has left the report's
range, and the first `size` events of `log`, none of which has. -/
structure Snapshot (fromJson : String → Option Json) (old log : List SecurityEvent) where
  env : Env
  db : Db
  size : Nat
  payload : ReportPayload
  text : String
  rows : db.securityEvents = old ++ log.take size
  left : ∀ e ∈ old, notBefore (env.nowUtc - daysDelta 7) e.occurredAt = false
  inRange : ∀ e ∈ log.take size, notBefore (env.nowUtc - daysDelta 7) e.occurredAt = true
  readable : env.sql .selectSecurityEvents = none
  reported : Handlers.reportPayload env db true = .ok payload
  parsed : fromJson text = some (Response.okWith payload.toValue).toJson

namespace Snapshot

variable {fromJson : String → Option Json} {old log : List SecurityEvent}

/-- The events of a snapshot, in whatever order the report lists them. -/
theorem events_perm (s : Snapshot fromJson old log) :
    ∃ events, reportEvents (fromJson s.text) = some events ∧
      events.Perm ((log.take s.size).map eventJson) := by
  have hpayload : s.payload = reportOf s.env s.db 7 := by
    have hreported := s.reported
    rw [reportPayload_eq s.env s.db rfl] at hreported
    split at hreported
    · cases hreported
    · split at hreported
      · cases hreported
      · split at hreported
        · cases hreported
        · exact (Except.ok.inj hreported).symm
  have hrecent : (s.db.recentSecurityEvents s.env.sql (s.env.nowUtc - daysDelta 7)).toOption.getD [] =
      (log.take s.size).insertionSort fun a b => notBefore b.occurredAt a.occurredAt := by
    have hfilter : s.db.securityEvents.filter
        (fun r => notBefore (s.env.nowUtc - daysDelta 7) r.occurredAt) = log.take s.size := by
      rw [s.rows, List.filter_append, List.filter_eq_nil_iff.mpr (by simpa using s.left),
        List.filter_eq_self.mpr s.inRange, List.nil_append]
    rw [Db.recentSecurityEvents, Sql.exec_of_none _ s.readable, hfilter]
    rfl
  refine ⟨s.payload.securityEvents.map SecurityEventSummary.toValue, ?_, ?_⟩
  · rw [s.parsed]
    rfl
  · rw [hpayload]
    show (List.map _ (List.map _ ((Db.recentSecurityEvents _ _ _).toOption.getD []))).Perm _
    rw [hrecent, List.map_map]
    exact (List.perm_insertionSort _ _).map _

/-- Its severe events. -/
def severe (s : Snapshot fromJson old log) : List Json :=
  ((reportEvents (fromJson s.text)).getD []).filter isSevere

theorem mem_severe {s : Snapshot fromJson old log} {ev : Json} :
    ev ∈ s.severe ↔ ∃ e ∈ log.take s.size, e.severity = "severe" ∧ eventJson e = ev := by
  obtain ⟨events, hevents, hperm⟩ := s.events_perm
  rw [severe, hevents, Option.getD_some, List.mem_filter, hperm.mem_iff, List.mem_map]
  constructor
  · rintro ⟨⟨e, he, rfl⟩, hsevere⟩
    rw [isSevere_eventJson, beq_iff_eq] at hsevere
    exact ⟨e, he, hsevere, rfl⟩
  · rintro ⟨e, he, hsevere, rfl⟩
    refine ⟨⟨e, he, rfl⟩, ?_⟩
    rw [isSevere_eventJson, hsevere]
    rfl

/-- No two of them bear the same time. -/
theorem nodup_severe (hlog : (log.map fun e => toRfc3339 e.occurredAt).Pairwise (· < ·))
    (s : Snapshot fromJson old log) : (s.severe.map occurredAt).Nodup := by
  obtain ⟨events, hevents, hperm⟩ := s.events_perm
  have htimes : ((log.take s.size).map eventJson).map occurredAt =
      (log.map fun e => toRfc3339 e.occurredAt).take s.size := by
    rw [List.map_map, List.map_take]
    rfl
  have hnodup : (events.map occurredAt).Nodup := by
    rw [(hperm.map occurredAt).nodup_iff, htimes]
    exact (hlog.imp ne_of_lt).sublist (List.take_sublist _ _)
  rw [severe, hevents, Option.getD_some]
  exact hnodup.sublist (List.filter_sublist.map occurredAt)

end Snapshot

/-! ### A session of the Control Center -/

section Session

variable {fromJson : String → Option Json} {old log : List SecurityEvent} (hostName : String)

/-- The marks after one more report of the host. -/
def applyReport (seen : LastNotified) (s : Snapshot fromJson old log) : LastNotified :=
  (notifySevereEvents fromJson hostName s.text seen).1

/-- The events it notifies. -/
def notified (seen : LastNotified) (s : Snapshot fromJson old log) : List Json :=
  (notifySevereEvents fromJson hostName s.text seen).2

/-- No text is as small as the mark of a report without severe events. -/
theorem toRfc3339_pos (t : DateTime) : "" < toRfc3339 t := by
  obtain ⟨c, cs, htext⟩ : ∃ c cs, (toRfc3339 t).toList = c :: cs := by
    refine List.exists_cons_of_length_pos ?_
    simp only [toRfc3339, String.toList_ofList, List.length_append, List.length_cons]
    omega
  rw [String.lt_iff, htext]
  exact List.nil_lt_cons c cs

theorem applyReport_mark (seen : LastNotified) (s : Snapshot fromJson old log) :
    (applyReport hostName seen s).lookup hostName =
        HighWater.receive occurredAt "" (seen.lookup hostName) s.severe ∧
      notified hostName seen s = HighWater.deliver occurredAt (seen.lookup hostName) s.severe := by
  obtain ⟨events, hevents, -⟩ := s.events_perm
  rw [Snapshot.severe, hevents, Option.getD_some]
  exact notifySevereEvents_mark hevents seen

/-- The reports of one host, in whatever order their polls end: the first notifies
nothing; a severe event logged after the first was taken is notified by the first
report that contains it; and no event is notified twice. -/
theorem severe_events_notified_once
    (hlog : (log.map fun e => toRfc3339 e.occurredAt).Pairwise (· < ·)) {seen : LastNotified}
    (hstart : hostName ∉ seen) (first : Snapshot fromJson old log)
    (reports : List (Snapshot fromJson old log)) :
    notified hostName seen first = [] ∧
      (∀ between s after, reports = between ++ s :: after →
        ∀ i e, log[i]? = some e → e.severity = "severe" → first.size ≤ i →
          (∀ s' ∈ between, s'.size ≤ i) → i < s.size →
          eventJson e ∈ notified hostName
            (Runs.run (applyReport hostName) seen (first :: between)) s) ∧
      ((Runs.written (applyReport hostName) (notified hostName) seen
        (first :: reports)).map occurredAt).Nodup := by
  have hnone : seen.lookup hostName = none := AList.lookup_eq_none.mpr hstart
  refine ⟨?_, ?_, ?_⟩
  · rw [(applyReport_mark hostName seen first).2, hnone]
    rfl
  · intro between s after _ i e hi hsevere hfirst hbetween hcontains
    have hmark : (Runs.run (applyReport hostName) seen (first :: between)).lookup hostName =
        Runs.run (HighWater.receive occurredAt "") none
          ((first :: between).map Snapshot.severe) := by
      rw [← hnone]
      exact Runs.run_part (fun seen : LastNotified => seen.lookup hostName) Snapshot.severe
        (fun seen s => (applyReport_mark hostName seen s).1) seen (first :: between)
    rw [(applyReport_mark hostName _ s).2, hmark]
    refine HighWater.mem_deliver_of_above (by simp) ?_ ?_ ?_
    · obtain ⟨hlength, rfl⟩ := List.getElem?_eq_some_iff.mp hi
      have hmem : log[i] ∈ log.take s.size :=
        List.mem_take_iff_getElem.mpr ⟨i, lt_min hcontains hlength, rfl⟩
      exact Snapshot.mem_severe.mpr ⟨log[i], hmem, hsevere, rfl⟩
    · exact toRfc3339_pos e.occurredAt
    -- an earlier report ends before the event, so all it shows is older
    · intro batch hbatch ev hev
      obtain ⟨s', hs', rfl⟩ := List.mem_map.mp hbatch
      obtain ⟨e', he', -, rfl⟩ := Snapshot.mem_severe.mp hev
      have hsize : s'.size ≤ i := by
        rcases List.mem_cons.mp hs' with rfl | hs'
        · exact hfirst
        · exact hbetween s' hs'
      exact older_of_mem_take hlog he' hi hsize
  · rw [Runs.written_part (fun seen : LastNotified => seen.lookup hostName) Snapshot.severe
      (fun seen s => (applyReport_mark hostName seen s).1)
      (fun seen s => (applyReport_mark hostName seen s).2)]
    refine (HighWater.nodup_delivered fun batch hbatch => ?_).1
    obtain ⟨s, -, rfl⟩ := List.mem_map.mp hbatch
    exact s.nodup_severe hlog

end Session

/-! ### Two polls -/

/-- Increasing instants have increasing texts. -/
theorem texts_pairwise {log : List SecurityEvent}
    (hyear : ∀ e ∈ log, FourDigitYear e.occurredAt)
    (hlog : (log.map SecurityEvent.occurredAt).Pairwise (@LT.lt Int _)) :
    (log.map fun e => toRfc3339 e.occurredAt).Pairwise (· < ·) := by
  rw [List.pairwise_map] at hlog ⊢
  exact hlog.imp_of_mem fun ha hb h => (toRfc3339_lt_iff (hyear _ ha) (hyear _ hb)).mpr h

/-- Three wrong codes, a minute apart. -/
def wrongCodes : List SecurityEvent :=
  [⟨1788220805123000000, "override_failed", "routine", some "org.kde.gcompris"⟩,
    ⟨1788220865123000000, "override_failed", "routine", some "org.kde.gcompris"⟩,
    ⟨1788220925123000000, "override_failed", "severe", some "org.kde.gcompris"⟩]

/-- The clock ten seconds after the n-th of them. -/
def pollEnv (n : Nat) : Env where
  nowUtc := 1788220755123000000 + 60000000000 * n
  nowLocal := 1788220755123000000 + 60000000000 * n

def pollDb (n : Nat) : Db := { securityEvents := wrongCodes.take n }

def pollResponse (n : Nat) : Json :=
  (Response.okWith (reportOf (pollEnv n) (pollDb n) 7).toValue).toJson

/-- Reads what these two polls print. -/
def readPolls (text : String) : Option Json :=
  [pollResponse 2, pollResponse 3].find? fun doc => String.ofList doc.encode = text

def pollAt (n : Nat)
    (hparsed : readPolls (String.ofList (pollResponse n).encode) = some (pollResponse n))
    (hrange : ∀ e ∈ wrongCodes.take n,
      notBefore ((pollEnv n).nowUtc - daysDelta 7) e.occurredAt = true) :
    Snapshot readPolls [] wrongCodes where
  env := pollEnv n
  db := pollDb n
  size := n
  payload := reportOf (pollEnv n) (pollDb n) 7
  text := String.ofList (pollResponse n).encode
  rows := rfl
  left := by simp
  inRange := hrange
  readable := rfl
  reported := by
    rw [reportPayload_eq _ _ rfl]
    rfl
  parsed := hparsed

/-- The first poll sees no severe event. -/
def firstPoll : Snapshot readPolls [] wrongCodes :=
  pollAt 2 (List.find?_cons_of_pos (decide_eq_true rfl)) (by decide +kernel)

def secondPoll : Snapshot readPolls [] wrongCodes := by
  refine pollAt 3 ?_ (by decide +kernel)
  have htexts : (pollResponse 2).encode ≠ (pollResponse 3).encode := by decide +kernel
  have hother :
      ¬ String.ofList (pollResponse 2).encode = String.ofList (pollResponse 3).encode :=
    fun heq => htexts (String.ofList_injective heq)
  rw [readPolls, List.find?_cons_of_neg (by simpa using hother)]
  exact List.find?_cons_of_pos (decide_eq_true rfl)

theorem wrongCodes_notified_once :
    notified "lena" ∅ firstPoll = [] ∧
      (∀ between s after, [secondPoll] = between ++ s :: after →
        ∀ i e, wrongCodes[i]? = some e → e.severity = "severe" → firstPoll.size ≤ i →
          (∀ s' ∈ between, s'.size ≤ i) → i < s.size →
          eventJson e ∈ notified "lena"
            (Runs.run (applyReport "lena") ∅ (firstPoll :: between)) s) ∧
      ((Runs.written (applyReport "lena") (notified "lena") ∅
        [firstPoll, secondPoll]).map occurredAt).Nodup :=
  severe_events_notified_once "lena" (texts_pairwise (by decide) (by decide))
    (AList.notMem_empty "lena") firstPoll [secondPoll]

end OmarchyKids.MainWindow
