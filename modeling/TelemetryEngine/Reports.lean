import TelemetryEngine.Confirms
import TelemetryEngine.Lib.Queue

/-!
# What the pipeline thread reports

`report` says what the pipeline thread is for: one message for each accepted frame of a published
protocol, in order, with the flow record and the retransmission verdict that the frames before it
determine. The thread itself talks to a broker that may fail at any call.

`reportLts` runs the thread and keeps a record of the frames it has read, the messages it has handed
to `amqp_basic_publish` and the results of `publish`. `faithful_of_reachable`: whatever the broker
does, the messages are a sublist of the report, so none is made up, repeated, reordered or computed
from other frames; and a true result means that the message was handed over.
-/

namespace TelemetryEngine

open Lib Lib.Program

/-! ## The report -/

/-- A message as it is handed to the broker: the number of the call of `publish`, and the text. -/
abbrev Publication := ℕ × String

/-- The message about `frame` after the frames `before`, if its protocol is published. -/
def messageFor (before : List EnrichedFrame) (frame : EnrichedFrame) : Option Publication :=
  let (flow, _, isRetransmit) := flowTracker frame (track before)
  if Publisher.Publishes frame then some (before.length, buildJson frame flow isRetransmit)
  else none

/-- The messages about `frames` after the frames `before`. -/
def reportFrom (before : List EnrichedFrame) : List EnrichedFrame → List Publication
  | [] => []
  | frame :: frames => (messageFor before frame).toList ++ reportFrom (before ++ [frame]) frames

/-- The messages about `frames`, from an empty flow table. -/
def report (frames : List EnrichedFrame) : List Publication := reportFrom [] frames

theorem reportFrom_append (before frames frames' : List EnrichedFrame) :
    reportFrom before (frames ++ frames') =
      reportFrom before frames ++ reportFrom (before ++ frames) frames' := by
  induction frames generalizing before with
  | nil => rw [List.append_nil]; rfl
  | cons frame frames ih =>
    rw [List.cons_append, reportFrom, reportFrom, ih, List.append_assoc, List.append_assoc,
      List.singleton_append]

theorem report_snoc (frames : List EnrichedFrame) (frame : EnrichedFrame) :
    report (frames ++ [frame]) = report frames ++ (messageFor frames frame).toList := by
  unfold report
  rw [reportFrom_append, List.nil_append, reportFrom, reportFrom, List.append_nil]

/-- A longer run reports the same messages first. -/
theorem report_mono {frames frames' : List EnrichedFrame} (h : frames <+: frames') :
    report frames <+: report frames' := by
  obtain ⟨rest, rfl⟩ := h
  unfold report
  rw [reportFrom_append]
  exact List.prefix_append _ _

/-- A message is about the frame of its number, and about the frames before it. -/
theorem mem_report {frames : List EnrichedFrame} {p : Publication} (h : p ∈ report frames) :
    ∃ before frame, before ++ [frame] <+: frames ∧ messageFor before frame = some p := by
  induction frames using List.reverseRecOn with
  | nil => cases h
  | append_singleton frames frame ih =>
    rw [report_snoc, List.mem_append, Option.mem_toList] at h
    rcases h with h | h
    · obtain ⟨before, frame', hpre, hp⟩ := ih h
      exact ⟨before, frame', hpre.trans (List.prefix_append _ _), hp⟩
    · exact ⟨frames, frame, List.prefix_refl _, h⟩

theorem messageFor_eq_some {before : List EnrichedFrame} {frame : EnrichedFrame} {p : Publication} :
    messageFor before frame = some p ↔ Publisher.Publishes frame ∧
      p = (before.length, buildJson frame (flowTracker frame (track before)).1
        (flowTracker frame (track before)).2.2) := by
  unfold messageFor
  split_ifs with hpub
  · rw [Option.some.injEq, eq_comm]
    exact (and_iff_right hpub).symm
  · exact ⟨nofun, fun h => absurd h.1 hpub⟩

/-- The numbers of the messages increase. -/
theorem report_numbers (frames : List EnrichedFrame) :
    ((report frames).map Prod.fst).Pairwise (· < ·) := by
  induction frames using List.reverseRecOn with
  | nil => exact .nil
  | append_singleton frames frame ih =>
    rw [report_snoc, List.map_append, List.pairwise_append]
    refine ⟨ih, ?_, ?_⟩
    · cases messageFor frames frame with
      | none => exact .nil
      | some p => exact List.pairwise_singleton _ _
    · intro n hn n' hn'
      obtain ⟨p, hp, rfl⟩ := List.mem_map.mp hn
      obtain ⟨p', hp', rfl⟩ := List.mem_map.mp hn'
      obtain ⟨before, frame', ⟨rest, hrest⟩, hm⟩ := mem_report hp
      rw [(messageFor_eq_some.mp hm).2, (messageFor_eq_some.mp (Option.mem_toList.mp hp')).2]
      show before.length < frames.length
      rw [← hrest]
      simp only [List.length_append, List.length_singleton]
      omega

/-! ## The record of a run -/

/-- What the pipeline thread has read, handed over and been told. -/
structure PipelineLog where
  arrivals : List Arrival := []
  sent : List Publication := []
  returned : List (ℕ × EnrichedFrame × Bool) := []

/-- The broker may answer anything; the log keeps what the thread did. -/
def logResponds (e : PipelineLog) : (c : PipelineCall) → c.Resp → PipelineLog → Prop
  | .readFrame, r, e' => e' = { e with arrivals := e.arrivals ++ r.toList }
  | .basicPublish _ message json, _, e' => e' = { e with sent := e.sent ++ [(message, json)] }
  | .publishReturned message frame result, _, e' =>
      e' = { e with returned := e.returned ++ [(message, frame, result)] }
  | _, _, e' => e' = e

def logWorld : World pipelineSignature PipelineLog := ⟨logResponds, fun _ _ => False⟩

/-- The pipeline thread with its log, from its start with `publisher` on. -/
def reportLts (localIps : LocalIpSet) (publisher : Publisher) :
    LTS (PipelineM (Option PipelineState) × PipelineLog) (LoopStep pipelineSignature) :=
  loopLts logWorld (· = {}) (pure (some { publisher })) (pipelineLoop localIps)

/-- A true result for a frame of a published protocol means that its message was handed over. -/
def Truthful (e : PipelineLog) : Prop :=
  ∀ message frame, (message, frame, true) ∈ e.returned → Publisher.Publishes frame →
    message ∈ e.sent.map Prod.fst

/-- What is claimed of the log at every moment. -/
def Faithful (localIps : LocalIpSet) (e : PipelineLog) : Prop :=
  e.sent.Sublist (report (enrichedRun localIps e.arrivals)) ∧ Truthful e

/-- What holds at the head of the loop: the table and the numbering are those of the frames read,
and `publish` has returned for each of them. -/
structure ReportInv (localIps : LocalIpSet) (st : PipelineState) (e : PipelineLog) : Prop where
  faithful : Faithful localIps e
  table_eq : st.table = track (enrichedRun localIps e.arrivals)
  calls_eq : st.calls = (enrichedRun localIps e.arrivals).length
  returned_eq : e.returned.map (fun r => (r.2.1, r.1)) = (enrichedRun localIps e.arrivals).zipIdx

/-! ## The thread -/

section Programs

variable {localIps : LocalIpSet} {e e₀ : PipelineLog} {α : Type}
  {Q : α → PipelineLog → Prop}

/-- A call of the thread, while the log is faithful. -/
theorem wp_logged {c : PipelineCall} {f : c.Resp → PipelineM α} (h : Faithful localIps e)
    (hf : ∀ r e', logResponds e c r e' →
      wp logWorld (fun e _ => Faithful localIps e) Q (f r) e') :
    wp logWorld (fun e _ => Faithful localIps e) Q (invoke c >>= f) e :=
  wp_invoke_of_quiet (S := pipelineSignature) (fun _ _ hr => hr) h hf

/-- The calls that leave no trace in the log. -/
def Untraced : PipelineCall → Prop
  | .readFrame => False
  | .basicPublish _ _ _ => False
  | .publishReturned _ _ _ => False
  | _ => True

theorem wp_untraced {c : PipelineCall} (hc : Untraced c) {f : c.Resp → PipelineM α}
    (h : Faithful localIps e)
    (hf : ∀ r, wp logWorld (fun e _ => Faithful localIps e) Q (f r) e) :
    wp logWorld (fun e _ => Faithful localIps e) Q (invoke c >>= f) e := by
  refine wp_logged h fun r e' hr => ?_
  have he : e' = e := by
    cases c <;> first | exact hc.elim | exact hr
  rw [he]
  exact hf r

theorem wp_done {a : α} (h : Q a e) :
    wp logWorld (fun e _ => Faithful localIps e) Q (pure a) e :=
  wp_ret_of_quiet (fun _ _ hr => hr) h

theorem Untraced.of_configures {c : ℕ} {call : PipelineCall} (h : call.Configures c) :
    Untraced call := by
  cases call <;> trivial

theorem logged_connectRule (h : Faithful localIps e₀) :
    ConnectRule logWorld (fun e _ => Faithful localIps e) (fun _ e => e = e₀) (fun _ => True)
      (· = e₀) (fun _ e => e = e₀) where
  create he hf := by
    subst he
    exact wp_untraced (by exact trivial) h fun r => hf r _ rfl
  configure hc he hf := by
    subst he
    exact wp_untraced (.of_configures hc) h fun r => hf r _ rfl
  destroy he hf := by
    subst he
    exact wp_untraced (by exact trivial) h fun _ => hf _ rfl
  reset _ := trivial
  failed _ he := wp_done he
  connected he := wp_done he

/-- Connecting leaves no trace in the log. -/
theorem wp_connect_logged (p : Publisher) (h : Faithful localIps e) :
    wp logWorld (fun e _ => Faithful localIps e) (fun _ e' => e' = e) p.connect e := by
  have hloop (p : Publisher) := (logged_connectRule h).connectLoop (p := p) trivial
    Publisher.maxAttempts rfl
  unfold Publisher.connect Publisher.disconnect
  split_ifs
  · refine wp_bind ?_
    refine wp_untraced (by exact trivial) h fun _ => ?_
    refine wp_untraced (by exact trivial) h fun _ => ?_
    refine wp_untraced (by exact trivial) h fun _ => ?_
    exact wp_done (hloop _)
  · exact hloop p

/-- Nor does the confirm wait. -/
theorem wp_confirmLoop_logged (p : Publisher) (polls : ℕ) (h : Faithful localIps e) :
    wp logWorld (fun e _ => Faithful localIps e) (fun _ e' => e' = e) (p.confirmLoop polls) e := by
  induction polls with
  | zero => exact wp_done rfl
  | succ polls ih =>
    unfold Publisher.confirmLoop
    refine wp_untraced (by exact trivial) h fun r => ?_
    cases r with
    | timeout =>
      refine wp_untraced (by exact trivial) h fun stop => ?_
      cases stop with
      | true => exact wp_done rfl
      | false => exact ih
    | error => exact wp_done rfl
    | ack => exact wp_done rfl
    | nack => exact wp_done rfl
    | other => exact ih

/-- `publish` hands over its message at most once, and before it returns true. -/
theorem wp_publish_logged (p : Publisher) (message : ℕ) (frame : EnrichedFrame) (flow : FlowRecord)
    (isRetransmit : Bool) (h : Faithful localIps e)
    (hsend : Publisher.Publishes frame → Faithful localIps
      { e with sent := e.sent ++ [(message, buildJson frame flow isRetransmit)] }) :
    wp logWorld (fun e _ => Faithful localIps e)
      (fun r e' => (e' = e ∧ (r.1 = true → ¬ Publisher.Publishes frame)) ∨
        (Publisher.Publishes frame ∧
          e' = { e with sent := e.sent ++ [(message, buildJson frame flow isRetransmit)] }))
      (p.publish message frame flow isRetransmit) e := by
  unfold Publisher.publish
  by_cases hpub : Publisher.Publishes frame
  · rw [if_neg (not_not.mpr hpub)]
    have hs (p : Publisher) : wp logWorld (fun e _ => Faithful localIps e)
        (fun r e' => (e' = e ∧ (r.1 = true → ¬ Publisher.Publishes frame)) ∨
          (Publisher.Publishes frame ∧
            e' = { e with sent := e.sent ++ [(message, buildJson frame flow isRetransmit)] }))
        (p.send message (buildJson frame flow isRetransmit)) e := by
      unfold Publisher.send
      refine wp_logged h fun ok e' hr => ?_
      obtain rfl := hr
      cases ok with
      | true =>
        exact wp_mono (wp_confirmLoop_logged p _ (hsend hpub)) fun r e' he => .inr ⟨hpub, he⟩
      | false => exact wp_done (.inr ⟨hpub, rfl⟩)
    by_cases hconn : p.connected = true
    · rw [if_pos hconn]
      exact hs p
    · rw [if_neg hconn]
      refine wp_bind (wp_mono (wp_connect_logged p h) fun r e' he => ?_)
      obtain ⟨ok, p'⟩ := r
      obtain rfl := he
      cases ok with
      | true => exact hs _
      | false => exact wp_done (.inl ⟨rfl, fun h => absurd h Bool.false_ne_true⟩)
  · rw [if_pos hpub]
    exact wp_done (.inl ⟨rfl, fun _ => hpub⟩)

/-- The loop goes on with its invariant, and a log is faithful also at the end. -/
def ReportPost (localIps : LocalIpSet) : Option PipelineState → PipelineLog → Prop
  | some st, e => ReportInv localIps st e
  | none, e => Faithful localIps e

theorem enrichedRun_snoc (arrivals : List Arrival) (a : Arrival) :
    enrichedRun localIps (arrivals ++ [a]) =
      enrichedRun localIps arrivals ++ (a.enriched localIps).toList :=
  filterMap_snoc _ arrivals a

/-- A frame that is read and dropped changes nothing. -/
theorem ReportInv.dropped {st : PipelineState} {a : Arrival} (h : ReportInv localIps st e)
    (ha : a.enriched localIps = none) :
    ReportInv localIps st { e with arrivals := e.arrivals ++ [a] } := by
  have hrun : enrichedRun localIps (e.arrivals ++ [a]) = enrichedRun localIps e.arrivals := by
    rw [enrichedRun_snoc, ha]
    exact List.append_nil _
  constructor
  · exact ⟨hrun ▸ h.faithful.1, h.faithful.2⟩
  · exact hrun ▸ h.table_eq
  · exact hrun ▸ h.calls_eq
  · exact hrun ▸ h.returned_eq

theorem wp_skipFrame_logged {st : PipelineState} (h : ReportInv localIps st e) :
    wp logWorld (fun e _ => Faithful localIps e) (ReportPost localIps) (skipFrame st) e := by
  unfold skipFrame
  refine wp_untraced (by exact trivial) h.faithful fun stop => ?_
  cases stop with
  | true => exact wp_done h.faithful
  | false => exact wp_done h

theorem faithful_arrival {a : Arrival} (h : Faithful localIps e) :
    Faithful localIps { e with arrivals := e.arrivals ++ [a] } := by
  refine ⟨h.1.trans (report_mono ?_).sublist, h.2⟩
  rw [enrichedRun_snoc]
  exact List.prefix_append _ _

theorem Truthful.send (h : Truthful e) (p : Publication) :
    Truthful { e with sent := e.sent ++ [p] } := by
  intro message frame hm hpub
  rw [List.map_append]
  exact List.mem_append_left _ (h message frame hm hpub)

theorem Truthful.return (h : Truthful e) {message : ℕ} {frame : EnrichedFrame} {result : Bool}
    (hsent : result = true → Publisher.Publishes frame → message ∈ e.sent.map Prod.fst) :
    Truthful { e with returned := e.returned ++ [(message, frame, result)] } := by
  intro message' frame' hm hpub
  rcases List.mem_append.mp hm with hm | hm
  · exact h message' frame' hm hpub
  · obtain ⟨rfl, rfl, rfl⟩ := by simpa using hm
    exact hsent rfl hpub

/-- The message about the next frame is the one that the state of the thread gives. -/
theorem ReportInv.messageFor_eq {st : PipelineState} (h : ReportInv localIps st e)
    (frame : EnrichedFrame) : messageFor (enrichedRun localIps e.arrivals) frame =
      if Publisher.Publishes frame then some (st.calls, buildJson frame
        (flowTracker frame st.table).1 (flowTracker frame st.table).2.2) else none := by
  rw [h.table_eq, h.calls_eq]
  rfl

/-- It may be handed over once the frame has been read. -/
theorem ReportInv.send {st : PipelineState} {a : Arrival} {frame : EnrichedFrame}
    (h : ReportInv localIps st e) (ha : a.enriched localIps = some frame)
    (hpub : Publisher.Publishes frame) : Faithful localIps
      { arrivals := e.arrivals ++ [a], returned := e.returned, sent := e.sent ++ [(st.calls,
        buildJson frame (flowTracker frame st.table).1 (flowTracker frame st.table).2.2)] } := by
  refine ⟨?_, h.faithful.2.send _⟩
  rw [enrichedRun_snoc, ha, Option.toList_some, report_snoc, h.messageFor_eq, if_pos hpub]
  exact List.Sublist.append h.faithful.1 (List.Sublist.refl _)

/-- An accepted frame is tracked and published; `e` is the log before it was read. -/
theorem wp_publishFrame_logged {st : PipelineState} {a : Arrival} {frame : EnrichedFrame}
    (h : ReportInv localIps st e) (ha : a.enriched localIps = some frame) :
    wp logWorld (fun e _ => Faithful localIps e) (ReportPost localIps) (publishFrame st frame)
      { e with arrivals := e.arrivals ++ [a] } := by
  have hrun : enrichedRun localIps (e.arrivals ++ [a]) =
      enrichedRun localIps e.arrivals ++ [frame] := by
    rw [enrichedRun_snoc, ha]
    rfl
  have harrived : Faithful localIps { e with arrivals := e.arrivals ++ [a] } :=
    faithful_arrival h.faithful
  have hsend := h.send ha
  unfold publishFrame
  rcases hflow : flowTracker frame st.table with ⟨flow, table, isRetransmit⟩
  rw [hflow] at hsend
  have htable : table = track (enrichedRun localIps (e.arrivals ++ [a])) := by
    rw [hrun, track_snoc, ← h.table_eq, hflow]
  -- `publish` returns with or without the message in the log, and its result is logged
  have hreturn (e' : PipelineLog) (result : Bool) (publisher : Publisher)
      (harr : e'.arrivals = e.arrivals ++ [a]) (hret : e'.returned = e.returned)
      (hf : Faithful localIps e')
      (htrue : result = true → Publisher.Publishes frame → st.calls ∈ e'.sent.map Prod.fst) :
      wp logWorld (fun e _ => Faithful localIps e) (ReportPost localIps)
        (invoke (.publishReturned st.calls frame result) >>= fun _ =>
          pure (some { publisher, table, calls := st.calls + 1 })) e' := by
    refine wp_logged hf fun _ e'' hr => ?_
    obtain rfl := hr
    refine wp_done ⟨⟨hf.1, hf.2.return htrue⟩, ?_, ?_, ?_⟩
    · rw [harr]
      exact htable
    · rw [harr, hrun, List.length_append, ← h.calls_eq]
      rfl
    · rw [harr, hrun, hret, List.map_append, h.returned_eq, List.zipIdx_append, h.calls_eq]
      rw [Nat.zero_add]
      rfl
  refine wp_bind (wp_mono (wp_publish_logged st.publisher st.calls frame flow isRetransmit
    harrived hsend) fun r e' hr => ?_)
  obtain ⟨result, publisher⟩ := r
  rcases hr with ⟨rfl, hfalse⟩ | ⟨hpub, rfl⟩
  · exact hreturn _ result publisher rfl rfl harrived fun hr hpub => absurd hpub (hfalse hr)
  · refine hreturn _ result publisher rfl rfl (hsend hpub) fun _ _ => ?_
    rw [List.map_append]
    exact List.mem_append_right _ (List.mem_singleton_self _)

/-- An iteration ends in one of two ways on a frame that the stages drop. -/
theorem processFrame_of_dropped {a : Arrival} (st : PipelineState)
    (ha : a.enriched localIps = none) :
    processFrame localIps st a = skipFrame st ∨ processFrame localIps st a = pure (some st) := by
  unfold processFrame
  cases hf : (filterFrame a.frameBuf frameBufSize a.frameSize a.captureTsMs).val a.mem with
  | none => exact .inl rfl
  | some filtered =>
    cases hd : (dissectorStage filtered localIps).val a.mem with
    | none =>
      right
      simp only [hd]
    | some dissected =>
      obtain ⟨enriched, hs⟩ := exists_statsStage dissected
      -- the stages are those of `enriched`
      have hsome : a.enriched localIps = some enriched := by
        unfold Arrival.enriched enrich
        simp only [Lib.Access.val_bind, hf, hd, Lib.Access.val_pure, hs]
      rw [ha] at hsome
      cases hsome

theorem wp_processFrame_logged {st : PipelineState} (a : Arrival) (h : ReportInv localIps st e) :
    wp logWorld (fun e _ => Faithful localIps e) (ReportPost localIps) (processFrame localIps st a)
      { e with arrivals := e.arrivals ++ [a] } := by
  cases ha : a.enriched localIps with
  | some frame =>
    rw [processFrame_of_enriched st ha]
    exact wp_publishFrame_logged h ha
  | none =>
    have hdrop := h.dropped ha
    rcases processFrame_of_dropped st ha with hp | hp
    · rw [hp]
      exact wp_skipFrame_logged hdrop
    · rw [hp]
      exact wp_done hdrop

theorem wp_pipelineLoop_logged {st : PipelineState} (h : ReportInv localIps st e) :
    wp logWorld (fun e _ => Faithful localIps e) (ReportPost localIps) (pipelineLoop localIps st)
      e := by
  unfold pipelineLoop
  refine wp_untraced (by exact trivial) h.faithful fun stop => ?_
  cases stop with
  | true => exact wp_done h.faithful
  | false =>
    refine wp_logged h.faithful fun r e' hr => ?_
    obtain rfl := hr
    cases r with
    | none =>
      simp only [Option.toList_none, List.append_nil]
      exact wp_skipFrame_logged h
    | some a => exact wp_processFrame_logged a h

theorem reportInv_start (publisher : Publisher) : ReportInv localIps { publisher } {} where
  faithful := ⟨List.nil_sublist _, fun _ _ h => by cases h⟩
  table_eq := rfl
  calls_eq := rfl
  returned_eq := rfl

end Programs

variable {localIps : LocalIpSet} {publisher : Publisher}
  {s : PipelineM (Option PipelineState) × PipelineLog}

/-- In every run of the thread the log is faithful, and at the head of the loop `publish` has
returned for every accepted frame. -/
theorem faithful_of_reachable (h : (reportLts localIps publisher).Reachable s) :
    Faithful localIps s.2 ∧ ∀ st, s.1 = .ret (some st) → ReportInv localIps st s.2 := by
  have hwp : wp logWorld (fun e _ => Faithful localIps e) (ReportPost localIps) s.1 s.2 := by
    refine loop_wp (S := pipelineSignature) ?_ (fun st e h => wp_pipelineLoop_logged h) h
    rintro _ rfl
    exact wp_done (reportInv_start publisher)
  obtain ⟨p, e⟩ := s
  cases p with
  | call c k => exact ⟨(hwp e .refl).1, fun st hs => by cases hs⟩
  | ret o =>
    have hpost : ReportPost localIps o e := hwp e .refl
    cases o with
    | none => exact ⟨hpost, fun st hs => by cases hs⟩
    | some st =>
      refine ⟨hpost.faithful, fun st' hs => ?_⟩
      cases hs
      exact hpost

end TelemetryEngine
