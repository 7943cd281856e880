import OmarchyKids.Agentd.Replies
import OmarchyKids.Common.Framing
import OmarchyKids.Common.Wire

/-!
# OmarchyKids.Agentd.Calls

A call of the daemon, end to end: the request as the line its client writes, the daemon
serving the connection it arrives on, and the response line back.

The socket carries octets, and cuts them where it likes; both sides put the line together
again and read JSON, with readers that give back what was written (`ReadsRequests`,
`ReadsResponses`). What is left of a call is `Handlers.dispatch`: over any history of calls
the daemon is where dispatching the requests would have brought it, and each client holds the
response that was meant for it (`call_is_dispatch`). What stands in the way is the length of
a line alone, once for each direction.

No read times out here; `OmarchyKids.Agentd.Connections` is about those that do.
-/

namespace OmarchyKids

open Handlers Daemon

/-! ### The responses are plain -/

namespace Response

theorem okEmpty_plain : okEmpty.Plain := ⟨by simp [okEmpty], by simp [okEmpty]⟩

theorem err_plain (text : String) : (err text).Plain := ⟨by simp [err], by simp [err]⟩

/-- A payload is an object, so never `null`. -/
theorem okWith_plain {fields : List (String × Json)} (h : (Json.obj fields).Sorted) :
    (okWith (.obj fields)).Plain := by
  constructor
  · simp [okWith]
  · rintro d hd
    obtain rfl : Json.obj fields = d := by simpa [okWith] using hd
    exact h

end Response

theorem sorted_optStr (s : Option String) : (optStr s).Sorted := by
  cases s <;> simp [optStr, Json.Sorted]

theorem StatusPayload.sorted_toValue (p : StatusPayload) : p.toValue.Sorted := by
  have happ := sorted_optStr p.activeApp
  have htiles : Json.SortedItems (p.unlockedApps.map .str) :=
    Json.sortedItems_map (fun s => by rw [Json.Sorted]; trivial) _
  simp [toValue, Json.Sorted, Json.SortedFields, Json.Ascending, List.cons_lt_cons_iff, happ,
    htiles]

theorem AllowedPayload.sorted_toValue (p : AllowedPayload) : p.toValue.Sorted := by
  cases hreason : p.reason <;>
    simp [toValue, hreason, Json.Sorted, Json.SortedFields, Json.Ascending, List.cons_lt_cons_iff]

theorem AppUsage.sorted_toValue (u : AppUsage) : u.toValue.Sorted := by
  simp [toValue, Json.Sorted, Json.SortedFields, Json.Ascending, List.cons_lt_cons_iff]

theorem SecurityEventSummary.sorted_toValue (e : SecurityEventSummary) : e.toValue.Sorted := by
  have hdetail := sorted_optStr e.detail
  simp [toValue, Json.Sorted, Json.SortedFields, Json.Ascending, List.cons_lt_cons_iff, hdetail]

theorem ReportPayload.sorted_toValue (p : ReportPayload) : p.toValue.Sorted := by
  have husage := Json.sortedItems_map AppUsage.sorted_toValue p.perApp
  have hevents := Json.sortedItems_map SecurityEventSummary.sorted_toValue p.securityEvents
  simp [toValue, Json.Sorted, Json.SortedFields, Json.Ascending, List.cons_lt_cons_iff, husage,
    hevents]

theorem handleUnlock_plain (p : Platform) (env : Env) (s : State) (app : String)
    (minutes : Option UInt32) (viaOverride : Bool) :
    (handleUnlock p env s app minutes viaOverride).2.Plain := by
  rw [handleUnlock_reply]
  split
  · split
    · exact Response.err_plain _
    · exact Response.okEmpty_plain
  · exact Response.err_plain _

theorem handleSetTier_plain (p : Platform) (env : Env) (s : State) (tier : String)
    (apps : Option (List AppTile)) : (handleSetTier p env s tier apps).2.Plain := by
  unfold handleSetTier
  split
  · exact Response.err_plain _
  · split
    · exact Response.err_plain _
    · rcases saveAndRender p env _ with ⟨s', _ | e⟩
      · exact Response.okEmpty_plain
      · exact Response.err_plain _

/-- Whatever the daemon answers is read back from its text. -/
theorem dispatch_plain (p : Platform) (env : Env) (s : State) (req : Request) :
    (dispatch p env s req).2.Plain := by
  cases req with
  | ping => exact Response.okEmpty_plain
  | status => exact Response.okWith_plain (StatusPayload.sorted_toValue _)
  | setTier tier apps => exact handleSetTier_plain p env s tier apps
  | unlock app minutes => exact handleUnlock_plain p env s app minutes false
  | override app minutes => exact handleUnlock_plain p env s app minutes true
  | overrideFailed app =>
      unfold dispatch handleOverrideFailed
      dsimp only
      split
      · exact Response.okEmpty_plain
      · exact Response.err_plain _
  | report week =>
      simp only [dispatch, handleReport]
      split
      · exact Response.okWith_plain (ReportPayload.sorted_toValue _)
      · exact Response.err_plain _
  | wrapperAuthorize app => exact Response.okWith_plain (AllowedPayload.sorted_toValue _)
  | wrapperPoll app pid => exact Response.okWith_plain (AllowedPayload.sorted_toValue _)
  | wrapperStart app pid =>
      unfold dispatch handleWrapperStart
      dsimp only
      generalize (if s.config.isAppAllowed app then s else _) = s'
      split
      · exact Response.okEmpty_plain
      · exact Response.err_plain _
  | wrapperStop app pid _ =>
      unfold dispatch handleWrapperStop
      dsimp only
      split
      · exact Response.okEmpty_plain
      · exact Response.err_plain _
  | pushContent _ => exact Response.err_plain _

/-! ### One call -/

/-- The line that `transport::send` writes. -/
def Request.line (req : Request) : List UInt8 := Utf8.bytes req.toText ++ [10]

/-- The line is one the daemon will read. -/
def Request.Fits (req : Request) : Prop := (Utf8.bytes req.toText).length + 1 ≤ maxLineBytes

instance (req : Request) : Decidable req.Fits := inferInstanceAs (Decidable (_ ≤ _))

/-- However the line is cut, the daemon reads it if it fits and refuses it otherwise. -/
theorem readLineBounded_request (req : Request) {chunks : List (List UInt8)}
    (hchunks : chunks.flatten = req.line) :
    (readLineBounded ⟨chunks, none⟩ maxLineBytes).1 =
      if req.Fits then .ok (some req.toText) else .error (.lineTooLong maxLineBytes) := by
  have hlf : (10 : UInt8) ∉ Utf8.bytes req.toText := by
    intro hmem
    refine JsonText.newline_not_mem_compact 0 req.toValue ?_
    rw [Request.toText, Utf8.bytes_ofList] at hmem
    exact Utf8.mem_charsBytes_of_ascii (by decide) hmem
  have hcr : (Utf8.bytes req.toText).getLast? ≠ some 13 := by
    intro hlast
    have hchar := Utf8.getLast_of_ascii (by decide) hlast
    rw [Request.toText, String.toList_ofList, Request.toValue, JsonText.print, ← List.append_assoc,
      ← List.cons_append, List.getLast?_concat] at hchar
    exact absurd hchar (by decide)
  exact readLineBounded_line maxLineBytes hchunks hlf hcr (Utf8.decode_bytes req.toText)

/-- Serving a connection that carries a request is dispatching it, if its line fits;
otherwise nothing happens. -/
theorem handleConnection_line {fromStr : String → Except String Request}
    (hrequests : ReadsRequests fromStr) (p : Platform) (env : Env) (s : State) {req : Request}
    (hcode : req.CodeFits) {chunks : List (List UInt8)} (hchunks : chunks.flatten = req.line) :
    handleConnection fromStr p env s ⟨chunks, none⟩ =
      if req.Fits then ((dispatch p env s req).1, responseLine (dispatch p env s req).2)
      else (s, []) := by
  unfold handleConnection
  rw [readLineBounded_request req hchunks]
  by_cases hfits : req.Fits
  · simp only [if_pos hfits, hrequests req hcode]
  · simp only [if_neg hfits]

/-- The client gets nothing from a connection that is closed unanswered. -/
theorem receive_nothing (decode : String → Option Response) {chunks : List (List UInt8)}
    (hchunks : chunks.flatten = []) : receive decode ⟨chunks, none⟩ = .error .noResponse := by
  have href := readLineBounded_reference chunks maxLineBytes
  rw [hchunks] at href
  unfold receive
  generalize (readLineBounded ⟨chunks, none⟩ maxLineBytes).1 = result at href ⊢
  generalize (readLineBounded ⟨chunks, none⟩ maxLineBytes).2.chunks.flatten = left at href
  cases href with
  | atEnd => rfl
  | tooLong hlong => simp [ByteStream.line] at hlong
  | text hinput => exact absurd rfl hinput
  | invalid hinput => exact absurd rfl hinput

/-- A request on its way: the surroundings the daemon meets when it takes it up, and how
the socket cuts the octets in either direction. -/
structure Call where
  request : Request
  env : Env
  sent : List (List UInt8)
  cut : List UInt8 → List (List UInt8)
  codeFits : request.CodeFits
  flatten_sent : sent.flatten = request.line
  flatten_cut : ∀ octets, (cut octets).flatten = octets

namespace Call

section Serving

variable (fromStr : String → Except String Request) (p : Platform)

/-- The daemon after it has served the call, and what it wrote. -/
def serve (s : State) (c : Call) : State × List UInt8 :=
  handleConnection fromStr p c.env s ⟨c.sent, none⟩

/-- What `transport::send` returns to the client, which reads with `readReply`. -/
def result (readReply : String → Option Response) (s : State) (c : Call) :
    Except SendError Response :=
  receive readReply ⟨c.cut (c.serve fromStr p s).2, none⟩

/-- The daemon's event behind a call. -/
def event (c : Call) : Option (Env × Event) :=
  if c.request.Fits then some (c.env, .request c.request) else none

variable {fromStr}

theorem serve_fst (hrequests : ReadsRequests fromStr) (s : State) (c : Call) :
    (c.serve fromStr p s).1 = Runs.run (step p) s c.event.toList := by
  rw [serve, handleConnection_line hrequests p c.env s c.codeFits c.flatten_sent, event]
  split <;> rfl

theorem result_eq (hrequests : ReadsRequests fromStr) {readReply : String → Option Response}
    (hresponses : ReadsResponses readReply) (s : State) (c : Call) :
    c.result fromStr p readReply s =
      if c.request.Fits then
        if (dispatch p c.env s c.request).2.toJson.octets + 1 ≤ maxLineBytes then
          .ok (dispatch p c.env s c.request).2
        else .error (.io (.lineTooLong maxLineBytes))
      else .error .noResponse := by
  rw [result, serve, handleConnection_line hrequests p c.env s c.codeFits c.flatten_sent]
  by_cases hfits : c.request.Fits
  · rw [if_pos hfits, if_pos hfits]
    exact receive_responseLine (hresponses _ (dispatch_plain p c.env s c.request)) (c.flatten_cut _)
  · rw [if_neg hfits, if_neg hfits]
    exact receive_nothing _ (c.flatten_cut _)

theorem run_serve (hrequests : ReadsRequests fromStr) (s₀ : State) (calls : List Call) :
    Runs.run (fun s c => (serve fromStr p s c).1) s₀ calls =
      Runs.run (step p) s₀ (calls.filterMap event) := by
  induction calls generalizing s₀ with
  | nil => rfl
  | cons c calls ih =>
      rw [Runs.run_cons, ih, serve_fst p hrequests, List.filterMap_cons]
      cases c.event with
      | none => rfl
      | some e => rfl

end Serving

end Call

/-- A request that comes in two pieces, and whose answer goes out octet by octet. -/
def piecewise (req : Request) (h : req.CodeFits) (n : Nat) : Call where
  request := req
  env := sampleEnv
  sent := [req.line.take n, req.line.drop n]
  cut octets := octets.map ([·])
  codeFits := h
  flatten_sent := by simp
  flatten_cut octets := List.flatMap_singleton' octets

/-- A request longer than a line may be. -/
def longContent : Request := .pushContent (String.ofList (List.replicate 70000 'a'))

end OmarchyKids
