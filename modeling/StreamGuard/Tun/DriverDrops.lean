/-
Which packets the TUN driver drops for their bytes.

The gauge that a call of `send` looks at covers more than the packets in the queue. It has the
reservation of every call that is neither through nor rolled back, whatever comes of it, and the
packet that the worker has just taken. So a call can be dropped though its packet would fit, but
only while another party is between its two accesses to the gauge.
-/
import StreamGuard.Tun.DriverRuns

set_option autoImplicit false

namespace StreamGuard.Tun

open StreamGuard StreamGuard.Lib

/-- The length of packets, all together. -/
def total (packets : List Bytes) : ℕ := (packets.map List.length).sum

/-- The packets of a class that the worker has taken. -/
def dequeued (c : DataClass) (s : Driver) (trace : List Trace) : List Bytes :=
  wrote c trace ++ write_failed c trace ++ s.worker.hand c

/-- The length of those that were accepted and not taken. -/
def waiting (c : DataClass) (s : Driver) (trace : List Trace) : ℕ :=
  total (accepted c trace) - total (dequeued c s trace)

/-- What the parties have on the gauge: a call the length of its packet from its reservation until
the packet is accepted or the reservation rolled back, and the worker that of the packet it has
taken. -/
def claimed (c : DataClass) (s : Driver) : ℕ := s.account.1 (.egress_queued_bytes c)

/-- The reservation is the last of the call. -/
def SendCall.dropped (c : DataClass) (call : SendCall) (s : Driver) : Prop :=
  (call.step s).2.1 = some (.Finish
    [.sub (.egress_queued_bytes c) call.packet.length, .add (.egress_dropped_byte c) 1]
    (.error (.EgressByteLimit call.traffic_class)))

instance instDecidableDropped (c : DataClass) (call : SendCall) (s : Driver) :
    Decidable (call.dropped c s) := inferInstanceAs (Decidable (_ = _))

/-- The gauge of a class says what is waiting and what is claimed, also when the worker has gone. -/
structure Covered (s : Driver) (trace : List Trace) : Prop where
  gauge : ∀ c, s.metrics.gauge (.egress_queued_bytes c) + total (dequeued c s trace) =
    total (accepted c trace) + claimed c s
  taken : ∀ c, total (dequeued c s trace) ≤ total (accepted c trace)

section Covered

variable {config : DriverConfig} {s s' : Driver} {trace out : List Trace} {c : DataClass}

/-- While the worker runs the books say so. -/
theorem covered_of_running (hbooks : Books s trace) (horder : Order s trace)
    (hruns : s.worker ≠ .Exited) : Covered s trace := by
  have htotal : ∀ c, total (accepted c trace) =
      total (dequeued c s trace) + ((s.egress c).map List.length).sum := by
    intro c
    rw [horder.ordered hruns c, total, List.map_append, List.sum_append, ← dequeued, ← total]
  refine ⟨?_, ?_⟩
  · intro c
    rw [hbooks.gauge hruns, htotal, queued, claimed]
    omega
  · intro c
    rw [htotal]
    omega

/-- The worker goes with nothing at hand. -/
theorem work_exits (h : work s = some s') (hexits : s'.worker = .Exited) :
    s.worker = .Leaving ∧ s' = exit_loop s := by
  revert h
  fun_cases work s with
  | case17 hworker =>
    rintro ⟨⟩
    exact ⟨hworker, rfl⟩
  | case6 | case11 | case18 => simp
  | case1 phase | case2 phase =>
    rintro ⟨⟩
    dsimp only at hexits
    split at hexits
    · cases phase <;> contradiction
    · cases phase <;> contradiction
  | case12 packet hworker previous_bytes =>
    rintro ⟨⟩
    dsimp only at hexits
    split at hexits
    · contradiction
    · contradiction
  | _ =>
    rintro ⟨⟩
    simp at hexits

/-- Without a worker nothing is accepted. -/
theorem SendCall.accepted_exited {call : SendCall} {point : Option SendPoint}
    (hexited : s.worker = .Exited) (h : call.step s = (s', point, out)) : accepted c out = [] := by
  revert h
  fun_cases SendCall.step s call with
  | case8 c hpoint hroom hworker => exact absurd hexited hworker
  | _ =>
    rintro ⟨⟩
    rfl

/-- Else a call has on its account what it has on the gauges. -/
theorem SendCall.gauge_exited {call : SendCall} {point : Option SendPoint}
    (hexited : s.worker = .Exited) (h : call.step s = (s', point, out)) (g : Gauge)
    (hle : call.account.1 g ≤ s.metrics.gauge g) :
    s'.metrics.gauge g + call.account.1 g =
      s.metrics.gauge g + (point.elim 0 (SendPoint.account call.packet.length)).1 g := by
  revert h hle
  unfold SendCall.account
  fun_cases SendCall.step s call with
  | case1 hpoint | case2 hpoint | case3 hpoint | case11 result hpoint =>
    rintro ⟨⟩ -
    rw [hpoint]
    rfl
  | case4 hpoint =>
    rintro ⟨⟩ -
    rw [hpoint, Option.elim_some, (checked_account s.config call call.packet.length).1]
    rfl
  | case5 length c hpoint previous_bytes =>
    rintro ⟨⟩ -
    rw [hpoint]
    split <;> simp [SendPoint.account, ops_account, length]
  | case6 c hpoint =>
    rintro ⟨⟩ -
    rw [hpoint]
    simp [SendPoint.account, occupies]
    omega
  | case7 length c hpoint hworker =>
    rintro ⟨⟩ -
    rw [hpoint]
    simp [SendPoint.account, ops_account, occupies, length]
  | case8 c hpoint hroom hworker | case9 length c hpoint hroom hworker =>
    exact absurd hexited hworker
  | case10 op ops result hpoint =>
    rintro ⟨⟩ hle
    rw [hpoint] at hle ⊢
    simp only [SendPoint.account, ops_account, released_cons, Cells.apply_gauge,
      Option.elim_some] at hle ⊢
    omega

/-- The owner has nothing of a packet on the gauge of a class. -/
theorem owner_gauge (h : owner_step s = some (s', out))
    (hle : s.owner.account.1 (.egress_queued_bytes c) ≤ s.metrics.gauge (.egress_queued_bytes c)) :
    s'.metrics.gauge (.egress_queued_bytes c) + s.owner.account.1 (.egress_queued_bytes c) =
      s.metrics.gauge (.egress_queued_bytes c) + s'.owner.account.1 (.egress_queued_bytes c) := by
  revert h hle
  fun_cases owner_step s with
  | case1 | case6 => simp
  | case2 waits started howner | case3 waits started howner | case5 waits started howner
  | case7 waits started howner | case8 waits started howner | case9 waits started howner
  | case11 waits started howner =>
    simp only [Option.some.injEq, Prod.mk.injEq]
    rintro ⟨rfl, rfl⟩ -
    rw [howner]
    rfl
  | case4 waits started howner packet rest hingress =>
    simp only [Option.some.injEq, Prod.mk.injEq]
    rintro ⟨rfl, rfl⟩ -
    rw [howner]
    simp [OwnerPoint.account, ops_account]
  | case10 op ops started result howner =>
    simp only [Option.some.injEq, Prod.mk.injEq]
    rintro ⟨rfl, rfl⟩ hle
    rw [howner] at hle ⊢
    simp only [OwnerPoint.account, ops_account, released_cons, Cells.apply_gauge] at hle ⊢
    omega

/-- A step of one party, where `rest` are the accounts of the others: what it takes off the gauge
was on its account. -/
theorem Covered.move {a a' rest : Account} (h : Covered s trace) (hbefore : s.account = a + rest)
    (hafter : s'.account = a' + rest) (hgauge : ∀ c,
      a.1 (.egress_queued_bytes c) ≤ s.metrics.gauge (.egress_queued_bytes c) →
        s'.metrics.gauge (.egress_queued_bytes c) + a.1 (.egress_queued_bytes c) =
          s.metrics.gauge (.egress_queued_bytes c) + a'.1 (.egress_queued_bytes c))
    (hhand : ∀ c, s'.worker.hand c = s.worker.hand c) (haccepted : ∀ c, accepted c out = [])
    (hwrote : ∀ c, wrote c out = []) (hfailures : write_failures out = []) :
    Covered s' (trace ++ out) := by
  have hsame : ∀ c, dequeued c s' (trace ++ out) = dequeued c s trace ∧
      accepted c (trace ++ out) = accepted c trace := by
    intro c
    simp [dequeued, write_failed, hhand, haccepted, hwrote, hfailures]
  refine ⟨?_, ?_⟩
  · intro c
    have hcovers := h.gauge c
    have htaken := h.taken c
    rw [claimed, hbefore, Prod.fst_add, Pi.add_apply] at hcovers
    rw [(hsame c).1, (hsame c).2, claimed, hafter, Prod.fst_add, Pi.add_apply]
    have hmove := hgauge c (by omega)
    omega
  · intro c
    rw [(hsame c).1, (hsame c).2]
    exact h.taken c

/-- A step that touches neither the gauges nor what was accepted and taken. -/
theorem Covered.silent (h : Covered s trace) (hmetrics : s'.metrics = s.metrics)
    (haccount : s'.account = s.account) (hworker : s'.worker = s.worker) : Covered s' trace := by
  rw [← List.append_nil trace]
  refine h.move (zero_add s.account).symm (by rw [haccount, zero_add]) ?_ ?_ (fun _ => rfl)
    (fun _ => rfl) rfl
  · simp [hmetrics]
  · simp [hworker]

/-- A step without a worker. -/
theorem covered_exited (h : Covered s trace) (hexited : s.worker = .Exited)
    (hmoved : Moved s s' out) : Covered s' (trace ++ out) := by
  cases hmoved with
  | Send traffic_class packet =>
    rw [List.append_nil]
    refine h.silent rfl ?_ rfl
    simp [Driver.account, SendCall.account, SendPoint.account]
  | Sender hmem hstep =>
    rename_i call s₁ point
    have hgauge := SendCall.gauge_exited hexited hstep
    obtain ⟨metrics, egress, rfl⟩ := SendCall.step_frame hstep
    refine h.move (Driver.account_sends hmem) ?_ (fun c => hgauge _) (fun _ => rfl)
      (fun _ => SendCall.accepted_exited hexited hstep) (fun _ => SendCall.step_wrote hstep)
      (SendCall.step_failures hstep)
    cases point <;> simp [Driver.account, SendCall.account, add_assoc]
  | Receive waits howner =>
    rw [List.append_nil]
    refine h.silent rfl ?_ rfl
    simp [Driver.account, howner, OwnerPoint.account]
  | Owner hstep =>
    have hgauge := fun c => owner_gauge (c := c) hstep
    have hout := owner_step_out hstep
    obtain ⟨metrics, ingress, owner, rfl⟩ := owner_step_frame hstep
    refine h.move (add_comm _ _) (add_comm _ _) hgauge (fun _ => rfl) ?_ ?_ ?_
    · obtain rfl | ⟨started, result, rfl⟩ := hout <;> simp
    · obtain rfl | ⟨started, result, rfl⟩ := hout <;> simp
    · obtain rfl | ⟨started, result, rfl⟩ := hout <;> rfl
  | Cancel howner =>
    rw [List.append_nil]
    refine h.silent rfl ?_ rfl
    simp [Driver.account, howner, OwnerPoint.account]
  | Work hstep => exact absurd hexited (work_runs hstep)
  | Written answer hworker =>
    rw [hexited] at hworker
    contradiction
  | Read answer hworker =>
    rw [hexited] at hworker
    contradiction
  | Shutdown =>
    rw [List.append_nil]
    exact h.silent rfl rfl rfl

/-- The worker leaves. -/
theorem covered_exits (h : Covered s trace) (hstep : work s = some s')
    (hexits : s'.worker = .Exited) : Covered s' trace := by
  obtain ⟨hworker, rfl⟩ := work_exits hstep hexits
  have hbefore := s.account_worker
  rw [hworker] at hbefore
  rw [← List.append_nil trace]
  refine h.move hbefore (exit_loop s).account_worker (fun _ _ => rfl) (fun c => ?_) (fun _ => rfl)
    (fun _ => rfl) rfl
  rw [hexits, hworker]
  rfl

theorem step_covered (h : Covered s trace) (hsound : Sound config s' (trace ++ out))
    (hmoved : Moved s s' out) : Covered s' (trace ++ out) := by
  by_cases hruns' : s'.worker = .Exited
  · by_cases hruns : s.worker = .Exited
    · exact covered_exited h hruns hmoved
    · -- it is the worker itself that has left
      cases hmoved with
      | Work hstep =>
        rw [List.append_nil]
        exact covered_exits h hstep hruns'
      | Sender hmem hstep =>
        obtain ⟨metrics, egress, rfl⟩ := SendCall.step_frame hstep
        exact absurd hruns' hruns
      | Owner hstep =>
        obtain ⟨metrics, ingress, owner, rfl⟩ := owner_step_frame hstep
        exact absurd hruns' hruns
      | Written answer hworker =>
        revert hruns'
        fun_cases written <;> simp
      | Read answer hworker =>
        revert hruns'
        fun_cases read s answer with
        | case2 byte bytes =>
          dsimp only
          split <;> simp
        | _ => simp
      | Send | Receive | Cancel | Shutdown => exact absurd hruns' hruns
  · exact covered_of_running hsound.books hsound.order hruns'

theorem run_covered {events : List DriverEvent} {os : List Trace}
    (h : exec Driver.step (Driver.spawn config) events = some (s, os)) :
    Sound config s os ∧ Covered s os := by
  have hspawn := spawn_sound config
  refine exec_along_induct (P := fun s a => Sound config s a ∧ Covered s a) (C := fun _ _ => True)
    (a := []) ?_ ⟨hspawn, covered_of_running hspawn.books hspawn.order (by simp [Driver.spawn])⟩
    (along_true _ _) h
  rintro s event s' out trace ⟨hsound, hcovered⟩ - hstep
  have hmoved := step_moved hstep
  have hsound' := step_sound hsound hmoved
  exact ⟨hsound', step_covered hcovered hsound' hmoved⟩

end Covered

/-! ## Drops -/

/-- In the run up to there a call has made its reservation in a class that, with what was claimed,
was full for its packet. -/
def Overfull (config : DriverConfig) (events : List DriverEvent) (call : SendCall) : Prop :=
  ∃ c before after s os, events = before ++ .Sender { call with point := .Reserve c } :: after ∧
    exec Driver.step (Driver.spawn config) before = some (s, os) ∧
    { call with point := .Reserve c } ∈ s.sends ∧ class_index call.traffic_class = some c ∧
    config.egress_max_bytes c < waiting c s os + claimed c s + call.packet.length

/-- Every call makes its reservation in its class, and where it is dropped for its bytes the class
was overfull. -/
structure Blamed (config : DriverConfig) (events : List DriverEvent) (s : Driver) : Prop where
  classes : ∀ call ∈ s.sends, ∀ c, call.point = .Reserve c →
    class_index call.traffic_class = some c
  drops : ∀ call ∈ s.sends, ∀ ops traffic_class,
    call.point = .Finish ops (.error (.EgressByteLimit traffic_class)) →
      traffic_class = call.traffic_class ∧ Overfull config events call

section Drops

variable {config : DriverConfig} {events : List DriverEvent} {event : DriverEvent} {s s' : Driver}
  {call : SendCall} {point : SendPoint} {trace out : List Trace} {c : DataClass}

/-- **A reservation is dropped** exactly if the class is full with what is claimed. -/
theorem dropped_iff (h : Covered s trace) (hpoint : call.point = .Reserve c) : call.dropped c s ↔
    s.config.egress_max_bytes c < waiting c s trace + claimed c s + call.packet.length := by
  have hgauge := h.gauge c
  have htaken := h.taken c
  have hsum : s.metrics.gauge (.egress_queued_bytes c) = waiting c s trace + claimed c s := by
    rw [waiting]
    omega
  rw [SendCall.dropped, SendCall.step, hpoint, ← hsum]
  simp

theorem Overfull.mono (h : Overfull config events call) (event : DriverEvent) :
    Overfull config (events ++ [event]) call := by
  obtain ⟨c, before, after, s, os, rfl, hfound⟩ := h
  exact ⟨c, before, after ++ [event], s, os, by simp, hfound⟩

theorem checked_not_dropped {ops : List Op} {traffic_class : TrafficClass} :
    call.checked config ≠ .Finish ops (.error (.EgressByteLimit traffic_class)) := by
  fun_cases SendCall.checked config call <;> simp

/-- A call that goes on is dropped in its reservation, or it has been. -/
theorem SendCall.step_drops {ops : List Op} {traffic_class : TrafficClass}
    (h : call.step s =
      (s', some (.Finish ops (.error (.EgressByteLimit traffic_class))), out)) :
    (∃ c, call.point = .Reserve c ∧ call.dropped c s ∧ traffic_class = call.traffic_class) ∨
      ∃ op, call.point = .Finish (op :: ops) (.error (.EgressByteLimit traffic_class)) := by
  have hnext : (call.step s).2.1 =
      some (.Finish ops (.error (.EgressByteLimit traffic_class))) := by rw [h]
  revert hnext
  fun_cases SendCall.step s call with
  | case5 length c hpoint previous_bytes =>
    intro hnext
    left
    dsimp only at hnext
    split at hnext
    case isTrue hover =>
      simp only [Option.some.injEq, SendPoint.Finish.injEq, Except.error.injEq,
        DriverError.EgressByteLimit.injEq] at hnext
      refine ⟨c, hpoint, ?_, hnext.2.symm⟩
      rw [SendCall.dropped, SendCall.step, hpoint]
      simp only [previous_bytes, length] at hover
      simp [hover]
    case isFalse => simp at hnext
  | case10 op ops' result hpoint =>
    intro hnext
    right
    simp only [Option.some.injEq, SendPoint.Finish.injEq] at hnext
    obtain ⟨rfl, rfl⟩ := hnext
    exact ⟨op, hpoint⟩
  | case4 hpoint =>
    intro hnext
    exact absurd (Option.some.inj hnext) checked_not_dropped
  | _ => simp [terminal_error]

/-- It makes its reservation in its class. -/
theorem SendCall.step_class (h : call.step s = (s', some (.Reserve c), out)) :
    class_index call.traffic_class = some c := by
  have hnext : (call.step s).2.1 = some (.Reserve c) := by rw [h]
  revert hnext
  fun_cases SendCall.step s call with
  | case4 hpoint =>
    rw [Option.some.injEq]
    fun_cases SendCall.checked s.config call with
    | case4 c' hclass hempty hsize =>
      rw [SendPoint.Reserve.injEq]
      rintro rfl
      exact hclass
    | _ => simp
  | case5 length c' hpoint previous_bytes =>
    dsimp only
    split <;> simp
  | _ => simp

/-- The calls after a step: they were there, or one has begun, or one has gone on. -/
theorem sends_step (h : s.step event = some (s', out)) (hcall : call ∈ s'.sends) :
    call ∈ s.sends ∨ call.point = .ReadFailure ∨
      ∃ earlier s₁ out₁, event = .Sender earlier ∧ earlier ∈ s.sends ∧
        earlier.step s = (s₁, some call.point, out₁) ∧
        call = { earlier with point := call.point } := by
  revert h
  fun_cases Driver.step s event with
  | case1 traffic_class packet =>
    rintro ⟨⟩
    rcases Multiset.mem_cons.mp hcall with rfl | hrest
    · exact .inr (.inl rfl)
    · exact .inl hrest
  | case2 earlier hmem next =>
    rcases hstep : earlier.step s with ⟨s₁, point, out₁⟩
    simp only [next, hstep]
    rintro ⟨⟩
    cases point with
    | none => exact .inl (Multiset.mem_of_mem_erase hcall)
    | some point =>
      rcases Multiset.mem_cons.mp hcall with rfl | hrest
      · exact .inr (.inr ⟨earlier, s₁, _, rfl, hmem, hstep, rfl⟩)
      · exact .inl (Multiset.mem_of_mem_erase hrest)
  | case3 | case5 | case8 | case11 | case13 => simp
  | case4 | case7 | case10 | case14 =>
    rintro ⟨⟩
    exact .inl hcall
  | case6 =>
    intro h
    obtain ⟨metrics, ingress, owner, rfl⟩ := owner_step_frame h
    exact .inl hcall
  | case9 =>
    intro h
    obtain ⟨s₁, hwork, hs₁⟩ := Option.map_eq_some_iff.mp h
    obtain ⟨rfl, rfl⟩ := Prod.mk.inj hs₁
    obtain ⟨metrics, failure, egress, ingress, worker, rfl⟩ := work_frame hwork
    exact .inl hcall
  | case12 answer hworker =>
    rintro ⟨⟩
    obtain ⟨metrics, worker, hread⟩ := read_frame s answer
    rw [hread] at hcall
    exact .inl hcall

theorem step_blamed {os : List Trace} (h : Blamed config events s)
    (hrun : exec Driver.step (Driver.spawn config) events = some (s, os))
    (hstep : s.step event = some (s', out)) : Blamed config (events ++ [event]) s' := by
  obtain ⟨hsound, hcovered⟩ := run_covered hrun
  refine ⟨?_, ?_⟩
  · intro call hcall c hpoint
    rcases sends_step hstep hcall with hold | hbegun | ⟨earlier, s₁, out₁, -, -, hnext, heq⟩
    · exact h.classes call hold c hpoint
    · rw [hbegun] at hpoint
      contradiction
    · rw [hpoint] at hnext
      have hclass := SendCall.step_class hnext
      rwa [heq]
  · intro call hcall ops traffic_class hpoint
    rcases sends_step hstep hcall with hold | hbegun | ⟨earlier, s₁, out₁, rfl, hmem, hnext, heq⟩
    · obtain ⟨hclass, hfull⟩ := h.drops call hold ops traffic_class hpoint
      exact ⟨hclass, hfull.mono event⟩
    · rw [hbegun] at hpoint
      contradiction
    · rw [hpoint] at hnext
      rcases SendCall.step_drops hnext with ⟨c, hreserve, hdropped, rfl⟩ | ⟨op, hbefore⟩
      · -- this is the reservation that is dropped
        have hclass := h.classes earlier hmem c hreserve
        have hfull := (dropped_iff hcovered hreserve).mp hdropped
        rw [hsound.limits.config_eq] at hfull
        have hsame : { call with point := .Reserve c } = earlier := by
          rw [heq, ← hreserve]
        refine ⟨by rw [heq], c, events, [], s, os, ?_, hrun, ?_, ?_, ?_⟩
        · rw [hsame]
        · rwa [hsame]
        · rwa [heq]
        · rwa [heq]
      · obtain ⟨hclass, hfull⟩ := h.drops earlier hmem _ traffic_class hbefore
        rw [heq]
        exact ⟨hclass, hfull.mono _⟩

theorem run_blamed {os : List Trace}
    (h : exec Driver.step (Driver.spawn config) events = some (s, os)) :
    Blamed config events s := by
  induction events using List.reverseRecOn generalizing s os with
  | nil =>
    obtain ⟨rfl, -⟩ := step_inj h
    exact ⟨fun _ hcall => absurd hcall (Multiset.notMem_zero _),
      fun _ hcall => absurd hcall (Multiset.notMem_zero _)⟩
  | append_singleton events event ih =>
    obtain ⟨s₁, ps, qs, hps, hqs⟩ := exec_split h
    obtain ⟨s₂, o, o', hstep, hend, -⟩ := exec_cons_eq_some.mp hqs
    obtain ⟨rfl, -⟩ := step_inj hend
    exact step_blamed (ih hps) hps hstep

/-- **Who is dropped for its bytes.** In every run a reservation is dropped exactly if the packet
does not fit with what is waiting in its class and what is claimed of it, where nothing is claimed
when the driver is at rest; and a call that returns the error was dropped in its reservation. -/
theorem byte_limit_drops {os : List Trace}
    (h : exec Driver.step (Driver.spawn config) events = some (s, os)) :
    (∀ call ∈ s.sends, ∀ c, call.point = .Reserve c → (call.dropped c s ↔
      config.egress_max_bytes c < waiting c s os + claimed c s + call.packet.length)) ∧
    (AtRest s → ∀ c, claimed c s = 0) ∧
    (∀ call ∈ s.sends, ∀ ops traffic_class,
      call.point = .Finish ops (.error (.EgressByteLimit traffic_class)) →
        traffic_class = call.traffic_class ∧ Overfull config events call) := by
  obtain ⟨hsound, hcovered⟩ := run_covered h
  refine ⟨?_, ?_, (run_blamed h).drops⟩
  · intro call _ c hpoint
    rw [dropped_iff hcovered hpoint, hsound.limits.config_eq]
  · intro hrest c
    rw [claimed, hrest.account_eq_zero]
    rfl

/-- Two bytes are queued. A call with three is not let in, and before it has taken them off the
gauge another call comes with two. -/
def two_at_once : List DriverEvent :=
  let begins := fun packet => DriverEvent.Send .Bulk packet ::
    [.ReadFailure, .LoadShutdown].map fun point => .Sender ⟨.Bulk, packet, none, point⟩
  undisturbed [1, 2] ++ begins [3, 4, 5] ++ [.Sender ⟨.Bulk, [3, 4, 5], none, .Reserve .Bulk⟩] ++
    begins [6, 7]

theorem byte_limit_drops_two_at_once : ∃ s os,
    exec Driver.step (Driver.spawn tight) two_at_once = some (s, os) ∧
      tight.egress_max_bytes .Bulk < waiting .Bulk s os + claimed .Bulk s + 2 := by
  have hend : (exec Driver.step (Driver.spawn tight) two_at_once).any (fun r => decide
      ((⟨.Bulk, [6, 7], none, .Reserve .Bulk⟩ : SendCall) ∈ r.1.sends ∧
        SendCall.dropped .Bulk ⟨.Bulk, [6, 7], none, .Reserve .Bulk⟩ r.1)) = true := by
    decide
  obtain ⟨⟨s, os⟩, hrun, hend⟩ := (Option.any_eq_true _ _).mp hend
  obtain ⟨hcall, hdropped⟩ := of_decide_eq_true hend
  exact ⟨s, os, hrun, ((byte_limit_drops hrun).1 _ hcall _ rfl).mp hdropped⟩

/-- **A packet that fits is dropped** for the reservation of a call that is itself dropped. -/
theorem fitting_packet_dropped : ∃ s os,
    exec Driver.step (Driver.spawn tight) two_at_once = some (s, os) ∧
      (∃ ops, ⟨.Bulk, [3, 4, 5], none, .Finish ops (.error (.EgressByteLimit .Bulk))⟩ ∈ s.sends) ∧
      (⟨.Bulk, [6, 7], none, .Reserve .Bulk⟩ : SendCall) ∈ s.sends ∧
      SendCall.dropped .Bulk ⟨.Bulk, [6, 7], none, .Reserve .Bulk⟩ s ∧
      waiting .Bulk s os + 2 ≤ tight.egress_max_bytes .Bulk := by
  have hend : (exec Driver.step (Driver.spawn tight) two_at_once).any (fun r => decide
      ((⟨.Bulk, [3, 4, 5], none,
          .Finish [.sub (.egress_queued_bytes .Bulk) 3, .add (.egress_dropped_byte .Bulk) 1]
            (.error (.EgressByteLimit .Bulk))⟩ : SendCall) ∈ r.1.sends ∧
        (⟨.Bulk, [6, 7], none, .Reserve .Bulk⟩ : SendCall) ∈ r.1.sends ∧
        SendCall.dropped .Bulk ⟨.Bulk, [6, 7], none, .Reserve .Bulk⟩ r.1 ∧
        waiting .Bulk r.1 r.2 + 2 ≤ tight.egress_max_bytes .Bulk)) = true := by
    decide
  obtain ⟨⟨s, os⟩, hrun, hend⟩ := (Option.any_eq_true _ _).mp hend
  obtain ⟨hrejected, hcall, hdropped, hfits⟩ := of_decide_eq_true hend
  exact ⟨s, os, hrun, ⟨_, hrejected⟩, hcall, hdropped, hfits⟩

end Drops

end StreamGuard.Tun
