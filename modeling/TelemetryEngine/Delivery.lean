import TelemetryEngine.Reports

/-!
# Delivery

`connect` makes three attempts, and the confirm wait polls 100 times. `patienceWorld` is a broker
for which that is enough: `amqp_tcp_socket_new` succeeds, at most two attempts in a row fail, a
message is accepted on a connection that is up, and its ack comes with the last poll at the latest.

`delivery_recovers`: after any history of failures, from the head of the loop on at which the broker
is such, every accepted frame of a published protocol is handed over, in order and once, and every
call of `publish` returns true. The messages lost before do not falsify the later ones.
-/

namespace TelemetryEngine

open Lib Lib.Program

/-! ## A broker to be patient with -/

/-- How many attempts to connect may still fail, and how many polls may still pass before the
ack. -/
structure Patience where
  failures : ℕ
  silence : ℕ

namespace Patience

/-- The attempts that `connect` can spare. -/
def spareAttempts : ℕ := Publisher.maxAttempts - 1

/-- The polls that the confirm wait can spare. -/
def sparePolls : ℕ := Publisher.maxConfirmWaitMs / Publisher.pollIntervalMs - 1

/-- A stage of an attempt; the attempt fails with it only while failures are left. -/
def Attempt (e : Patience) (ok : Bool) (e' : Patience) : Prop :=
  match ok with
  | true => e' = e
  | false => 0 < e.failures ∧ e' = { e with failures := e.failures - 1 }

/-- A poll without the ack. -/
def Poll (e e' : Patience) : Prop := 0 < e.silence ∧ e' = { e with silence := e.silence - 1 }

end Patience

/-- `stop_flag` is not set, a socket can be allocated, an attempt that succeeds makes up for those
that failed, and every message is acked. -/
def patienceResponds (e : Patience) : (c : PipelineCall) → c.Resp → Patience → Prop
  | .loadStop, stop, e' => stop = false ∧ e' = e
  | .tcpSocketNew _, ok, e' => ok = true ∧ e' = e
  | .socketOpen _, ok, e' => e.Attempt ok e'
  | .login _, ok, e' => e.Attempt ok e'
  | .channelOpen _, ok, e' => e.Attempt ok e'
  | .confirmSelect _, true, e' => e' = { e with failures := Patience.spareAttempts }
  | .confirmSelect _, false, e' => e.Attempt false e'
  | .basicPublish _ _ _, ok, e' => ok = true ∧ e' = { e with silence := Patience.sparePolls }
  | .waitFrame _, .ack, e' => e' = e
  | .waitFrame _, .timeout, e' => e.Poll e'
  | .waitFrame _, .other, e' => e.Poll e'
  | .waitFrame _, .nack, _ => False
  | .waitFrame _, .error, _ => False
  | _, _, e' => e' = e

def patienceWorld : World pipelineSignature Patience := ⟨patienceResponds, fun _ _ => False⟩

/-! ## `publish` -/

namespace Patience

variable {α : Type} {Q : α → Patience → Prop} {e : Patience}

theorem wp_next {c : PipelineCall} {f : c.Resp → PipelineM α}
    (hf : ∀ r e', patienceResponds e c r e' → wp patienceWorld (fun _ _ => True) Q (f r) e') :
    wp patienceWorld (fun _ _ => True) Q (invoke c >>= f) e :=
  wp_invoke_of_quiet (S := pipelineSignature) (fun _ _ hr => hr) trivial hf

theorem wp_done {a : α} (h : Q a e) : wp patienceWorld (fun _ _ => True) Q (pure a) e :=
  wp_ret_of_quiet (fun _ _ hr => hr) h

/-- A call that the patience does not depend on. -/
theorem wp_skip {c : PipelineCall} {f : c.Resp → PipelineM α}
    (hc : ∀ r e', patienceResponds e c r e' → e' = e)
    (hf : ∀ r, wp patienceWorld (fun _ _ => True) Q (f r) e) :
    wp patienceWorld (fun _ _ => True) Q (invoke c >>= f) e :=
  wp_next fun r e' hr => hc r e' hr ▸ hf r

/-- The result is true, and the patience with the next `connect` is full again. -/
def Succeeds (r : Bool × Publisher) (e : Patience) : Prop :=
  r.1 = true ∧ e.failures = spareAttempts

theorem wp_connectLoop (p : Publisher) (attempts : ℕ) (h : e.failures < attempts) :
    wp patienceWorld (fun _ _ => True) Succeeds (p.connectLoop attempts) e := by
  induction attempts generalizing p e with
  | zero => exact absurd h (Nat.not_lt_zero _)
  | succ attempts ih =>
    unfold Publisher.connectLoop
    refine wp_skip (fun _ _ hr => hr) fun c => ?_
    -- an attempt that fails leaves one failure less for one attempt less
    have hnext (p : Publisher) (hpos : 0 < e.failures) :
        wp patienceWorld (fun _ _ => True) Succeeds
          (invoke (.destroyConnection (some c)) >>= fun _ => p.connectLoop attempts)
          { e with failures := e.failures - 1 } := by
      refine wp_skip (fun _ _ hr => hr) fun _ => ih p ?_
      show e.failures - 1 < attempts
      omega
    refine wp_next fun ok e' hr => ?_
    obtain ⟨rfl, rfl⟩ := hr
    refine wp_next fun ok e' hr => ?_
    cases ok with
    | false =>
      obtain ⟨hpos, rfl⟩ := hr
      exact hnext _ hpos
    | true =>
    obtain rfl := hr
    refine wp_skip (fun _ _ hr => hr) fun _ => ?_
    refine wp_next fun ok e' hr => ?_
    cases ok with
    | false =>
      obtain ⟨hpos, rfl⟩ := hr
      exact hnext _ hpos
    | true =>
    obtain rfl := hr
    refine wp_next fun ok e' hr => ?_
    cases ok with
    | false =>
      obtain ⟨hpos, rfl⟩ := hr
      exact wp_skip (fun _ _ hr => hr) fun _ => hnext _ hpos
    | true =>
    obtain rfl := hr
    refine wp_next fun ok e' hr => ?_
    cases ok with
    | false =>
      obtain ⟨hpos, rfl⟩ := hr
      exact wp_skip (fun _ _ hr => hr) fun _ => wp_skip (fun _ _ hr => hr) fun _ => hnext _ hpos
    | true =>
    obtain rfl := hr
    exact wp_done ⟨rfl, rfl⟩

theorem wp_connect (p : Publisher) (h : e.failures = spareAttempts) :
    wp patienceWorld (fun _ _ => True) Succeeds p.connect e := by
  have hloop (p : Publisher) : wp patienceWorld (fun _ _ => True) Succeeds
      (p.connectLoop Publisher.maxAttempts) e :=
    wp_connectLoop p _ (h ▸ by decide)
  unfold Publisher.connect Publisher.disconnect
  split_ifs
  · refine wp_bind ?_
    refine wp_skip (fun _ _ hr => hr) fun _ => ?_
    refine wp_skip (fun _ _ hr => hr) fun _ => ?_
    refine wp_skip (fun _ _ hr => hr) fun _ => ?_
    exact wp_done (hloop _)
  · exact hloop p

theorem wp_confirmLoop (p : Publisher) (polls : ℕ) (hpolls : e.silence < polls)
    (h : e.failures = spareAttempts) :
    wp patienceWorld (fun _ _ => True) Succeeds (p.confirmLoop polls) e := by
  induction polls generalizing e with
  | zero => exact absurd hpolls (Nat.not_lt_zero _)
  | succ polls ih =>
    have hnext (hpos : 0 < e.silence) : wp patienceWorld (fun _ _ => True) Succeeds
        (p.confirmLoop polls) { e with silence := e.silence - 1 } := by
      refine ih ?_ h
      show e.silence - 1 < polls
      omega
    unfold Publisher.confirmLoop
    refine wp_next fun r e' hr => ?_
    cases r with
    | timeout =>
      obtain ⟨hpos, rfl⟩ := hr
      refine wp_next fun stop e' hr => ?_
      obtain ⟨rfl, rfl⟩ := hr
      exact hnext hpos
    | error => exact hr.elim
    | ack =>
      obtain rfl := hr
      exact wp_done ⟨rfl, h⟩
    | nack => exact hr.elim
    | other =>
      obtain ⟨hpos, rfl⟩ := hr
      exact hnext hpos

theorem wp_send (p : Publisher) (message : ℕ) (json : String) (h : e.failures = spareAttempts) :
    wp patienceWorld (fun _ _ => True) Succeeds (p.send message json) e := by
  unfold Publisher.send
  refine wp_next fun ok e' hr => ?_
  obtain ⟨rfl, rfl⟩ := hr
  exact wp_confirmLoop p _ (show sparePolls < _ by decide) h

/-- The three attempts and the 100 polls are enough. -/
theorem wp_publish (p : Publisher) (message : ℕ) (frame : EnrichedFrame) (flow : FlowRecord)
    (isRetransmit : Bool) (h : e.failures = spareAttempts) :
    wp patienceWorld (fun _ _ => True) Succeeds (p.publish message frame flow isRetransmit) e := by
  unfold Publisher.publish
  by_cases hpub : Publisher.Publishes frame
  · rw [if_neg (not_not.mpr hpub)]
    split_ifs
    · exact wp_send p message _ h
    · refine wp_bind (wp_mono (wp_connect p h) fun r e hr => ?_)
      obtain ⟨ok, p'⟩ := r
      obtain ⟨rfl, h⟩ := hr
      exact wp_send { p' with connected := true } message _ h
  · rw [if_pos hpub]
    exact wp_done ⟨rfl, h⟩

end Patience

/-! ## The thread -/

/-- The patient broker, with the log of what the thread does. -/
def responsiveWorld : World pipelineSignature (PipelineLog × Patience) where
  respond e c r e' := logResponds e.1 c r e'.1 ∧ patienceResponds e.2 c r e'.2
  rely _ _ := False

/-- The pipeline thread from the loop head `st` with the log `e` on, with the patient broker. -/
def responsiveLts (localIps : LocalIpSet) (st : PipelineState) (e : PipelineLog) :
    LTS (PipelineM (Option PipelineState) × PipelineLog × Patience) (LoopStep pipelineSignature) :=
  loopLts responsiveWorld (fun s => s.1 = e ∧ s.2.failures = Patience.spareAttempts)
    (pure (some st)) (pipelineLoop localIps)

/-- Between the logs `e` and `e'` every message of the report was handed over, and every `publish`
returned true. -/
structure Dispatched (localIps : LocalIpSet) (e e' : PipelineLog) : Prop where
  sent : ∃ later, report (enrichedRun localIps e'.arrivals) =
    report (enrichedRun localIps e.arrivals) ++ later ∧ e'.sent = e.sent ++ later
  returned : ∃ later, e'.returned = e.returned ++ later ∧ ∀ r ∈ later, r.2.2 = true

section Dispatched

variable {localIps : LocalIpSet} {e e' e'' : PipelineLog}

theorem Dispatched.refl (localIps : LocalIpSet) (e : PipelineLog) : Dispatched localIps e e where
  sent := ⟨[], (List.append_nil _).symm, (List.append_nil _).symm⟩
  returned := ⟨[], (List.append_nil _).symm, fun _ h => by cases h⟩

theorem Dispatched.trans (h : Dispatched localIps e e') (h' : Dispatched localIps e' e'') :
    Dispatched localIps e e'' := by
  obtain ⟨later, hreport, hsent⟩ := h.sent
  obtain ⟨later', hreport', hsent'⟩ := h'.sent
  obtain ⟨results, hreturned, htrue⟩ := h.returned
  obtain ⟨results', hreturned', htrue'⟩ := h'.returned
  constructor
  · refine ⟨later ++ later', ?_, ?_⟩
    · rw [hreport', hreport, List.append_assoc]
    · rw [hsent', hsent, List.append_assoc]
  · refine ⟨results ++ results', ?_, ?_⟩
    · rw [hreturned', hreturned, List.append_assoc]
    · intro r hr
      exact (List.mem_append.mp hr).elim (htrue r) (htrue' r)

/-- A frame is read that the stages drop. -/
theorem Dispatched.dropped {a : Arrival} (ha : a.enriched localIps = none) :
    Dispatched localIps e { e with arrivals := e.arrivals ++ [a] } where
  sent := by
    refine ⟨[], ?_, (List.append_nil _).symm⟩
    rw [enrichedRun_snoc, ha, Option.toList_none, List.append_nil, List.append_nil]
  returned := ⟨[], (List.append_nil _).symm, fun _ h => by cases h⟩

/-- A frame is accepted, its message is handed over if it has one, and `publish` returns true. -/
theorem Dispatched.accepted {a : Arrival} {frame : EnrichedFrame}
    (ha : a.enriched localIps = some frame) (message : ℕ) :
    Dispatched localIps e
      { arrivals := e.arrivals ++ [a]
        sent := e.sent ++ (messageFor (enrichedRun localIps e.arrivals) frame).toList
        returned := e.returned ++ [(message, frame, true)] } where
  sent := by
    refine ⟨_, ?_, rfl⟩
    rw [enrichedRun_snoc, ha, Option.toList_some, report_snoc]
  returned := ⟨_, rfl, fun r hr => by rw [List.mem_singleton.mp hr]⟩

end Dispatched

section Thread

variable {localIps : LocalIpSet} {e : PipelineLog × Patience} {α : Type}
  {Q : α → PipelineLog × Patience → Prop}

theorem wp_responsive {c : PipelineCall} {f : c.Resp → PipelineM α}
    (hf : ∀ r log patience, logResponds e.1 c r log → patienceResponds e.2 c r patience →
      wp responsiveWorld (fun _ _ => True) Q (f r) (log, patience)) :
    wp responsiveWorld (fun _ _ => True) Q (invoke c >>= f) e :=
  wp_invoke_of_quiet (S := pipelineSignature) (fun _ _ hr => hr) trivial
    fun r e' hr => hf r e'.1 e'.2 hr.1 hr.2

theorem wp_responsive_done {a : α} (h : Q a e) :
    wp responsiveWorld (fun _ _ => True) Q (pure a) e :=
  wp_ret_of_quiet (fun _ _ hr => hr) h

/-- `publish` hands over the message of a published protocol, and returns true. -/
theorem wp_publish_responsive (p : Publisher) (message : ℕ) (frame : EnrichedFrame)
    (flow : FlowRecord) (isRetransmit : Bool) (h : Faithful localIps e.1)
    (hfull : e.2.failures = Patience.spareAttempts)
    (hsend : Publisher.Publishes frame → Faithful localIps
      { e.1 with sent := e.1.sent ++ [(message, buildJson frame flow isRetransmit)] }) :
    wp responsiveWorld (fun _ _ => True)
      (fun r e' => r.1 = true ∧ e'.2.failures = Patience.spareAttempts ∧
        e'.1 = { e.1 with sent := e.1.sent ++ if Publisher.Publishes frame then
          [(message, buildJson frame flow isRetransmit)] else [] })
      (p.publish message frame flow isRetransmit) e := by
  have hpatient := wp_view (V := responsiveWorld) Prod.snd (fun _ _ _ _ hr => hr.2)
    (fun _ _ hr => hr) (Patience.wp_publish p message frame flow isRetransmit hfull)
  have hlogged := wp_view (V := responsiveWorld) Prod.fst (fun _ _ _ _ hr => hr.1)
    (fun _ _ hr => hr) (wp_publish_logged p message frame flow isRetransmit h hsend)
  refine wp_mono (wp_and hpatient hlogged) fun r e' hr => ?_
  obtain ⟨⟨hok, hfull'⟩, ⟨hkept, hskip⟩ | ⟨hpub, hsent⟩⟩ := hr
  · refine ⟨hok, hfull', ?_⟩
    rw [if_neg (hskip hok), List.append_nil]
    exact hkept
  · refine ⟨hok, hfull', ?_⟩
    rw [if_pos hpub]
    exact hsent

/-- An iteration that goes on has delivered what it had to. -/
def Advances (localIps : LocalIpSet) (log : PipelineLog) (_ : Option PipelineState)
    (e : PipelineLog × Patience) : Prop :=
  Dispatched localIps log e.1 ∧ e.2.failures = Patience.spareAttempts

theorem wp_skipFrame_responsive {log : PipelineLog} (st : PipelineState)
    (h : Advances localIps log (some st) e) :
    wp responsiveWorld (fun _ _ => True) (Advances localIps log) (skipFrame st) e := by
  unfold skipFrame
  refine wp_responsive fun stop log patience hlog hpatience => ?_
  obtain rfl := hlog
  obtain ⟨rfl, rfl⟩ := hpatience
  exact wp_responsive_done h

theorem wp_publishFrame_responsive {log : PipelineLog} {patience : Patience} {st : PipelineState}
    {a : Arrival} {frame : EnrichedFrame} (h : ReportInv localIps st log)
    (ha : a.enriched localIps = some frame) (hfull : patience.failures = Patience.spareAttempts) :
    wp responsiveWorld (fun _ _ => True) (Advances localIps log) (publishFrame st frame)
      ({ log with arrivals := log.arrivals ++ [a] }, patience) := by
  have hmessage := h.messageFor_eq frame
  have hsend := h.send ha
  unfold publishFrame
  rcases hflow : flowTracker frame st.table with ⟨flow, table, isRetransmit⟩
  rw [hflow] at hmessage hsend
  refine wp_bind (wp_mono (wp_publish_responsive st.publisher st.calls frame flow isRetransmit
    (faithful_arrival h.faithful) hfull hsend) fun r e' hr => ?_)
  obtain ⟨result, publisher⟩ := r
  obtain ⟨rfl, hfull', hsent⟩ := hr
  refine wp_responsive fun _ log' patience' hlog hpatience => ?_
  obtain rfl := hpatience
  refine wp_responsive_done ⟨?_, hfull'⟩
  have haccepted := Dispatched.accepted (e := log) ha st.calls
  rw [hmessage, apply_ite Option.toList] at haccepted
  rw [show log' = _ from hlog, hsent]
  exact haccepted

theorem wp_processFrame_responsive {log : PipelineLog} {patience : Patience} {st : PipelineState}
    (a : Arrival) (h : ReportInv localIps st log)
    (hfull : patience.failures = Patience.spareAttempts) :
    wp responsiveWorld (fun _ _ => True) (Advances localIps log) (processFrame localIps st a)
      ({ log with arrivals := log.arrivals ++ [a] }, patience) := by
  cases ha : a.enriched localIps with
  | some frame =>
    rw [processFrame_of_enriched st ha]
    exact wp_publishFrame_responsive h ha hfull
  | none =>
    rcases processFrame_of_dropped st ha with hp | hp
    · rw [hp]
      exact wp_skipFrame_responsive st ⟨.dropped ha, hfull⟩
    · rw [hp]
      exact wp_responsive_done ⟨.dropped ha, hfull⟩

theorem wp_pipelineLoop_responsive {st : PipelineState} (h : ReportInv localIps st e.1)
    (hfull : e.2.failures = Patience.spareAttempts) :
    wp responsiveWorld (fun _ _ => True) (Advances localIps e.1) (pipelineLoop localIps st) e := by
  unfold pipelineLoop
  refine wp_responsive fun stop log patience hlog hpatience => ?_
  obtain rfl := hlog
  obtain ⟨rfl, rfl⟩ := hpatience
  refine wp_responsive fun r log patience hlog hpatience => ?_
  obtain rfl := hlog
  obtain rfl := hpatience
  cases r with
  | none =>
    simp only [Option.toList_none, List.append_nil]
    exact wp_skipFrame_responsive st ⟨.refl _ _, hfull⟩
  | some a => exact wp_processFrame_responsive a h hfull

end Thread

/-- **Delivery recovers.** Take any run of the pipeline thread up to a loop head, whatever failed in
it. From there on, with a broker that the retries are enough for, every frame that is accepted and
has a published protocol is handed over, in order and once, with the message that all frames read so
far determine; and `publish` returns true for every frame. -/
theorem delivery_recovers (localIps : LocalIpSet) (publisher : Publisher)
    {st st' : PipelineState} {e : PipelineLog} {e' : PipelineLog × Patience}
    (h : (reportLts localIps publisher).Reachable (.ret (some st), e))
    (h' : (responsiveLts localIps st e).Reachable (.ret (some st'), e')) :
    Dispatched localIps e e'.1 := by
  have hinv : ReportInv localIps st e := (faithful_of_reachable h).2 st rfl
  -- the loop invariant: the report so far, and what has been dispatched of it since `e`
  have hwp : wp responsiveWorld (fun _ _ => True)
      (fun o s => ReportPost localIps o s.1 ∧ Advances localIps e o s) (.ret (some st')) e' := by
    refine loop_wp (S := pipelineSignature) (fun s hs => ?_) (fun st s hs => ?_) h'
    · obtain ⟨hlog, hfull⟩ := hs
      exact wp_responsive_done ⟨hlog ▸ hinv, hlog ▸ .refl _ _, hfull⟩
    · obtain ⟨hreport, hdispatched, hfull⟩ := hs
      have hlogged := wp_view (V := responsiveWorld) Prod.fst (fun _ _ _ _ hr => hr.1)
        (fun _ _ hr => hr) (wp_pipelineLoop_logged hreport)
      refine wp_mono (wp_and (wp_pipelineLoop_responsive hreport hfull) hlogged) fun o s hs => ?_
      exact ⟨hs.2, hdispatched.trans hs.1.1, hs.1.2⟩
  exact (hwp e' .refl).2.1

/-- The first iteration with the patient broker. -/
theorem reachable_first (localIps : LocalIpSet) (st : PipelineState) (e : PipelineLog) :
    (responsiveLts localIps st e).Reachable
      (pipelineLoop localIps st, e, ⟨Patience.spareAttempts, 0⟩) :=
  reachable_again ⟨[], .start ⟨rfl, rfl, rfl⟩⟩

theorem reachable_responsive {localIps : LocalIpSet} {st : PipelineState} {e log log' : PipelineLog}
    {patience patience' : Patience} {c : PipelineCall}
    {k : c.Resp → PipelineM (Option PipelineState)}
    (h : (responsiveLts localIps st e).Reachable (.call c k, log, patience)) (r : c.Resp)
    (hlog : logResponds log c r log') (hpatience : patienceResponds patience c r patience') :
    (responsiveLts localIps st e).Reachable (k r, log', patience') :=
  reachable_call (S := pipelineSignature) h r ⟨hlog, hpatience⟩

/-- The first message is lost. For the second one the first attempt to connect fails, and the first
poll times out. -/
theorem delivery_recovers_reconnected :
    ∃ st e st' e', (reportLts ∅ ⟨some 0, true, true⟩).Reachable (.ret (some st), e) ∧
      (responsiveLts ∅ st e).Reachable (.ret (some st'), e') ∧
      e.returned.map (·.2.2) = [false] ∧ e'.1.returned.map (·.2.2) = [false, true] ∧
      Dispatched ∅ e e'.1 := by
  have hsome : ((twinFrame false).enriched ∅).map EnrichedFrame.protocol = some 6 := by
    decide +kernel
  obtain ⟨frame, hframe, hproto⟩ := Option.map_eq_some_iff.mp hsome
  have hpub : Publisher.Publishes frame := .inr (.inl hproto)
  have h0 : (reportLts ∅ ⟨some 0, true, true⟩).Reachable
      (.ret (some { publisher := ⟨some 0, true, true⟩ }), {}) := ⟨[], .start ⟨rfl, rfl⟩⟩
  have h1 := reachable_call (S := pipelineSignature) (reachable_again h0) false rfl
  have h2 : (reportLts ∅ ⟨some 0, true, true⟩).Reachable
      (processFrame ∅ { publisher := ⟨some 0, true, true⟩ } (twinFrame false),
        { arrivals := [twinFrame false] }) :=
    reachable_call (S := pipelineSignature) h1 (some (twinFrame false)) rfl
  obtain ⟨json, table, hsend⟩ :=
    publishFrame_of_connected { publisher := ⟨some 0, true, true⟩ } hpub rfl
  rw [processFrame_of_enriched _ hframe, hsend] at h2
  have h3 := reachable_call (S := pipelineSignature) h2 false rfl
  have h4 := reachable_call (S := pipelineSignature) h3 () rfl
  obtain ⟨json', table', hsend'⟩ := publishFrame_of_disconnected
    { publisher := ⟨some 0, true, false⟩, table, calls := 1 } hpub rfl
  -- from here on the broker is patient
  have r0 := reachable_first ∅ { publisher := ⟨some 0, true, false⟩, table, calls := 1 }
    { arrivals := [twinFrame false], sent := [(0, json)], returned := [(0, frame, false)] }
  have r1 := reachable_responsive r0 false rfl ⟨rfl, rfl⟩
  have r2 : (responsiveLts ∅ _ _).Reachable (processFrame ∅ _ (twinFrame false), _) :=
    reachable_responsive r1 (some (twinFrame false)) rfl rfl
  rw [processFrame_of_enriched _ hframe, hsend'] at r2
  have r3 := reachable_responsive r2 () rfl rfl
  have r4 := reachable_responsive r3 () rfl rfl
  have r5 := reachable_responsive r4 () rfl rfl
  have r6 := reachable_responsive r5 (1 : ℕ) rfl rfl
  have r7 := reachable_responsive r6 true rfl ⟨rfl, rfl⟩
  have r8 := reachable_responsive r7 false rfl ⟨by decide, rfl⟩
  have r9 := reachable_responsive r8 () rfl rfl
  have r10 := reachable_responsive r9 (2 : ℕ) rfl rfl
  have r11 := reachable_responsive r10 true rfl ⟨rfl, rfl⟩
  have r12 := reachable_responsive r11 true rfl rfl
  have r13 := reachable_responsive r12 () rfl rfl
  have r14 := reachable_responsive r13 true rfl rfl
  have r15 := reachable_responsive r14 true rfl rfl
  have r16 := reachable_responsive r15 true rfl rfl
  have r17 := reachable_responsive r16 true rfl ⟨rfl, rfl⟩
  have r18 := reachable_responsive r17 .timeout rfl ⟨by decide, rfl⟩
  have r19 := reachable_responsive r18 false rfl ⟨rfl, rfl⟩
  have r20 := reachable_responsive r19 .ack rfl rfl
  have r21 := reachable_responsive r20 () rfl rfl
  exact ⟨_, _, _, _, h4, r21, rfl, rfl, delivery_recovers ∅ _ h4 r21⟩

end TelemetryEngine
