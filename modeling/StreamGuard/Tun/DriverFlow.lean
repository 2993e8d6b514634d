/-
What every step of the TUN driver keeps, besides the books.

What the first failure does to the worker, in what order packets get through a queue, how full the
queues are, and what a call returns that has started after the failure.
-/
import StreamGuard.Tun.DriverBooks

set_option autoImplicit false

namespace StreamGuard.Tun

open StreamGuard StreamGuard.Lib

/-! ## The first failure -/

/-- The worker is on its way out. -/
def WorkerPoint.halted : WorkerPoint → Bool
  | .LoadShutdown .AfterPass | .ReadFailure .AfterPass | .Leaving | .Exited => true
  | _ => false

/-- One if a write has failed and the failure is not recorded yet. -/
def WorkerPoint.faults : WorkerPoint → ℕ
  | .Settle _ (.WriteFault _ _) => 1
  | _ => 0

/-- One if it is recorded. -/
def write_fault (failure : Option DriverFailure) : ℕ :=
  if failure.map (·.kind) = some .Write then 1 else 0

/-- After a failure the worker is on its way out, and one write has failed at most. -/
structure Fate (s : Driver) (trace : List Trace) : Prop where
  halted : s.failure.isSome = true → s.worker.halted = true
  faults : (write_failures trace).length = s.worker.faults + write_fault s.failure

section Fate

variable {s s' : Driver} {trace out : List Trace}

theorem Fate.frame (h : Fate s trace) (hfailure : s'.failure = s.failure)
    (hworker : s'.worker = s.worker) (hout : write_failures out = []) : Fate s' (trace ++ out) := by
  refine ⟨?_, ?_⟩
  · rw [hfailure, hworker]
    exact h.halted
  · rw [hfailure, hworker, write_failures_append, hout, List.append_nil]
    exact h.faults

/-- Where the worker is not on its way out nothing has failed. -/
theorem Fate.failure_eq_none (h : Fate s trace) (hworker : s.worker.halted = false) :
    s.failure = none := by
  cases hfailure : s.failure with
  | none => rfl
  | some failure =>
    have hhalted := h.halted (by rw [hfailure, Option.isSome_some])
    rw [hworker] at hhalted
    cases hhalted

/-- A worker that is not on its way out goes on. -/
theorem Fate.running (h : Fate s trace) (hworker : s.worker.halted = false)
    (hfailure : s'.failure = s.failure) (hfaults : s'.worker.faults = s.worker.faults) :
    Fate s' trace := by
  refine ⟨?_, ?_⟩
  · rw [hfailure, h.failure_eq_none hworker]
    simp
  · rw [hfailure, hfaults]
    exact h.faults

theorem break_halted (phase : Phase) : (break_at phase).halted = true := by
  cases phase <;> rfl

theorem break_faults (phase : Phase) : (break_at phase).faults = 0 := by
  cases phase <;> rfl

theorem work_fate (h : Fate s trace) (hstep : work s = some s') : Fate s' trace := by
  revert hstep
  fun_cases work s with
  | case6 | case11 | case18 => simp
  | case1 phase hworker =>
    rintro ⟨⟩
    have hhalted := h.halted
    have hfaults := h.faults
    rw [hworker] at hhalted hfaults
    split
    · exact ⟨fun _ => break_halted phase, by rwa [break_faults]⟩
    · exact ⟨fun hsome => by cases phase <;> simp_all [WorkerPoint.halted], hfaults⟩
  | case2 phase hworker =>
    rintro ⟨⟩
    have hfaults := h.faults
    rw [hworker] at hfaults
    split
    case isTrue => exact ⟨fun _ => break_halted phase, by rwa [break_faults]⟩
    case isFalse hnone =>
      refine ⟨fun hsome => absurd hsome hnone, ?_⟩
      cases phase <;> exact hfaults
  | case3 c rest hworker | case4 c rest hworker =>
    rintro ⟨⟩
    exact h.running (by rw [hworker]; rfl) rfl (by rw [hworker]; rfl)
  | case5 c rest packet op ops hworker =>
    rintro ⟨⟩
    exact h.running (by rw [hworker]; rfl) rfl (by rw [hworker]; rfl)
  | case7 op ops next hworker =>
    rintro ⟨⟩
    exact h.running (by rw [hworker]; rfl) rfl (by rw [hworker]; cases next <;> rfl)
  | case8 phase hworker =>
    rintro ⟨⟩
    exact h.running (by rw [hworker]; rfl) rfl (by rw [hworker]; rfl)
  | case9 message hworker =>
    rintro ⟨⟩
    have hfaults := h.faults
    rw [h.failure_eq_none (by rw [hworker]; rfl), hworker] at hfaults
    rw [set_failure_eq, h.failure_eq_none (by rw [hworker]; rfl)]
    exact ⟨fun _ => rfl, hfaults⟩
  | case10 c message hworker =>
    rintro ⟨⟩
    have hfaults := h.faults
    rw [h.failure_eq_none (by rw [hworker]; rfl), hworker] at hfaults
    rw [set_failure_eq, h.failure_eq_none (by rw [hworker]; rfl)]
    exact ⟨fun _ => rfl, hfaults⟩
  | case12 packet hworker =>
    rintro ⟨⟩
    exact h.running (by rw [hworker]; rfl) rfl (by rw [hworker]; dsimp only; split <;> rfl)
  | case13 packet hworker | case14 packet hworker | case15 packet hworker =>
    rintro ⟨⟩
    exact h.running (by rw [hworker]; rfl) rfl (by rw [hworker]; rfl)
  | case16 hworker | case17 hworker =>
    rintro ⟨⟩
    have hfaults := h.faults
    rw [hworker] at hfaults
    exact ⟨fun _ => rfl, hfaults⟩

theorem SendCall.step_failures {call : SendCall} {point : Option SendPoint}
    (h : call.step s = (s', point, out)) : write_failures out = [] := by
  revert h
  fun_cases SendCall.step s call <;> rintro ⟨⟩ <;> rfl

theorem step_fate (h : Fate s trace) (hmoved : Moved s s' out) : Fate s' (trace ++ out) := by
  cases hmoved with
  | Send | Receive | Cancel | Shutdown => exact h.frame rfl rfl rfl
  | Sender hmem hstep =>
    have hout := SendCall.step_failures hstep
    obtain ⟨metrics, egress, rfl⟩ := SendCall.step_frame hstep
    exact h.frame rfl rfl hout
  | Owner hstep =>
    obtain rfl | ⟨started, result, rfl⟩ := owner_step_out hstep <;>
      obtain ⟨metrics, ingress, owner, rfl⟩ := owner_step_frame hstep <;> exact h.frame rfl rfl rfl
  | Work hstep =>
    rw [List.append_nil]
    exact work_fate h hstep
  | Written answer hworker =>
    rename_i c rest packet
    have hnone := h.failure_eq_none (by rw [hworker]; rfl)
    have hfaults := h.faults
    rw [hworker] at hfaults
    refine ⟨by simp [hnone], ?_⟩
    simp only [write_failures_append, List.length_append, hfaults]
    fun_cases written packet.length c rest answer with
    | case1 => simp [WorkerPoint.faults]
    | case2 hexpected => simp [WorkerPoint.faults, hexpected, Nat.add_comm]
    | case3 n hexpected => simp [WorkerPoint.faults, hexpected, Nat.add_comm]
    | case4 error => simp [WorkerPoint.faults, Nat.add_comm]
  | Read answer hworker =>
    rw [List.append_nil]
    fun_cases read s answer with
    | case1 | case3 | case4 | case5 =>
      exact h.running (by rw [hworker]; rfl) rfl (by rw [hworker]; rfl)
    | case2 => exact h.running (by rw [hworker]; rfl) rfl (by rw [hworker]; dsimp only; split <;> rfl)

end Fate

/-! ## The order of the packets -/

/-- The packet that the worker has taken and not written. -/
def WorkerPoint.hand (c : DataClass) : WorkerPoint → List Bytes
  | .Write c' _ packet _ => if c' = c then [packet] else []
  | _ => []

/-- What was accepted has been written, or its write has failed, or it is at the worker or in the
queue, in that order. -/
structure Order (s : Driver) (trace : List Trace) : Prop where
  ordered : s.worker ≠ .Exited → ∀ c, accepted c trace =
    wrote c trace ++ write_failed c trace ++ s.worker.hand c ++ s.egress c
  written_first : ∀ c, wrote c trace <+: accepted c trace

section Order

variable {s s' : Driver} {trace out : List Trace}

/-- While the worker runs the order says what was written first. -/
theorem order_of_ordered (h : ∀ c, accepted c trace =
    wrote c trace ++ write_failed c trace ++ s.worker.hand c ++ s.egress c) : Order s trace := by
  refine ⟨fun _ => h, fun c => ?_⟩
  rw [h c, List.append_assoc, List.append_assoc]
  exact List.prefix_append _ _

theorem Order.frame (h : Order s trace) (hegress : s'.egress = s.egress)
    (hworker : s'.worker = s.worker) (haccepted : ∀ c, accepted c out = [])
    (hwrote : ∀ c, wrote c out = []) (hfailures : write_failures out = []) :
    Order s' (trace ++ out) := by
  refine ⟨?_, fun c => ?_⟩
  · simpa [hegress, hworker, haccepted, hwrote, write_failed, hfailures] using h.ordered
  · simpa [haccepted, hwrote] using h.written_first c

theorem sender_order (h : Order s trace) {call : SendCall} {point : Option SendPoint}
    (sends : Multiset SendCall) (hstep : call.step s = (s', point, out)) :
    Order { s' with sends } (trace ++ out) := by
  revert hstep
  fun_cases SendCall.step s call with
  | case8 c hpoint hroom hworker =>
    rintro ⟨⟩
    refine order_of_ordered fun c' => ?_
    have hordered := h.ordered hworker c'
    by_cases hc : c' = c
    · subst hc
      simp [hordered, write_failed]
    · simp [hordered, write_failed, hc, Ne.symm hc]
  | _ =>
    rintro ⟨⟩
    exact h.frame rfl rfl (by simp) (by simp) rfl

/-- The worker goes on, with the same packet at hand if any, or it leaves. -/
theorem Order.goes_on (h : Order s trace) (hegress : s'.worker ≠ .Exited → s'.egress = s.egress)
    (hruns : s.worker ≠ .Exited)
    (hhand : s'.worker ≠ .Exited → ∀ c, s'.worker.hand c = s.worker.hand c) :
    Order s' trace := by
  refine ⟨fun hworker c => ?_, h.written_first⟩
  rw [hegress hworker, hhand hworker]
  exact h.ordered hruns c

theorem break_hand (phase : Phase) (c : DataClass) : (break_at phase).hand c = [] := by
  cases phase <;> rfl

theorem work_order (h : Order s trace) (hstep : work s = some s') : Order s' trace := by
  have hruns := work_runs hstep
  revert hstep
  fun_cases work s with
  | case6 | case11 | case18 => simp
  | case1 phase hworker | case2 phase hworker =>
    rintro ⟨⟩
    refine h.goes_on (fun _ => rfl) hruns (fun _ c => ?_)
    rw [hworker]
    dsimp only
    split
    · exact break_hand phase c
    · cases phase <;> rfl
  | case4 c rest hworker packet queue hegress =>
    rintro ⟨⟩
    refine order_of_ordered fun c' => ?_
    have hordered := h.ordered hruns c'
    by_cases hc : c' = c
    · subst hc
      simpa [hworker, WorkerPoint.hand, hegress] using hordered
    · simpa [hworker, WorkerPoint.hand, hc, Ne.symm hc] using hordered
  | case17 hworker =>
    rintro ⟨⟩
    exact ⟨fun hexited => absurd rfl hexited, h.written_first⟩
  | case9 message hworker | case10 c message hworker =>
    rintro ⟨⟩
    rw [set_failure_eq]
    exact h.goes_on (fun _ => rfl) hruns (fun _ c => by simp [hworker, WorkerPoint.hand])
  | case12 packet hworker =>
    rintro ⟨⟩
    refine h.goes_on (fun _ => rfl) hruns (fun _ c => ?_)
    dsimp only
    split <;> simp [hworker, WorkerPoint.hand]
  | case3 c rest hworker | case5 c rest packet op ops hworker | case7 op ops next hworker 
  | case8 phase hworker | case13 packet hworker | case14 packet hworker | case15 packet hworker
  | case16 hworker =>
    rintro ⟨⟩
    exact h.goes_on (fun _ => rfl) hruns (fun _ c => by simp [hworker, WorkerPoint.hand])

theorem step_order (h : Order s trace) (hfate : Fate s trace) (hmoved : Moved s s' out) :
    Order s' (trace ++ out) := by
  cases hmoved with
  | Send | Receive | Cancel | Shutdown => exact h.frame rfl rfl (by simp) (by simp) rfl
  | Sender hmem hstep => exact sender_order h _ hstep
  | Owner hstep =>
    obtain rfl | ⟨started, result, rfl⟩ := owner_step_out hstep <;>
      obtain ⟨metrics, ingress, owner, rfl⟩ := owner_step_frame hstep <;>
      exact h.frame rfl rfl (by simp) (by simp) rfl
  | Work hstep =>
    rw [List.append_nil]
    exact work_order h hstep
  | Written answer hworker =>
    rename_i c rest packet
    have hordered := h.ordered (by simp [hworker])
    have hfailures : write_failures trace = [] := by
      have hfaults := hfate.faults
      rw [hworker, hfate.failure_eq_none (by rw [hworker]; rfl)] at hfaults
      exact List.length_eq_zero_iff.mp hfaults
    refine order_of_ordered fun c' => ?_
    have hordered := hordered c'
    simp only [hworker, write_failed, hfailures] at hordered
    fun_cases written packet.length c rest answer with
    | case1 =>
      by_cases hc : c = c' <;>
        simpa [WorkerPoint.hand, write_failed, hfailures, hc] using hordered
    | case2 hexpected =>
      by_cases hc : c = c' <;>
        simpa [WorkerPoint.hand, write_failed, hfailures, hc, hexpected] using hordered
    | case3 n hexpected => 
      by_cases hc : c = c' <;>
        simpa [WorkerPoint.hand, write_failed, hfailures, hc, hexpected] using hordered
    | case4 error =>
      by_cases hc : c = c' <;>
        simpa [WorkerPoint.hand, write_failed, hfailures, hc] using hordered
  | Read answer hworker =>
    rw [List.append_nil]
    fun_cases read s answer with
    | case2 =>
      refine h.goes_on (fun _ => rfl) (by simp [hworker]) (fun _ c => ?_)
      dsimp only
      split <;> simp [hworker, WorkerPoint.hand]
    | case1 | case3 | case4 | case5 =>
      exact h.goes_on (fun _ => rfl) (by simp [hworker])
        (fun _ c => by simp [hworker, WorkerPoint.hand])

end Order

/-! ## The limits -/

/-- What a call that was let through the byte limit of a class has reserved. -/
def SendCall.passed (c : DataClass) (call : SendCall) : ℕ :=
  match call.point with
  | .CountPacket c' | .TrySend c' => if c' = c then call.packet.length else 0
  | _ => 0

/-- The queues are within the limits, with all that was let through on its way. -/
structure Limits (config : DriverConfig) (s : Driver) : Prop where
  config_eq : s.config = config
  packets : ∀ c, (s.egress c).length ≤ config.egress_max_packets c
  bytes : s.worker ≠ .Exited → ∀ c, ((s.egress c).map List.length).sum +
    (s.sends.map (SendCall.passed c)).sum ≤ config.egress_max_bytes c

section Limits

variable {config : DriverConfig} {s s' : Driver} {c : DataClass} {trace out : List Trace}

theorem passed_le (c : DataClass) (sends : Multiset SendCall) :
    (sends.map (SendCall.passed c)).sum ≤
      (sends.map SendCall.account).sum.1 (.egress_queued_bytes c) := by
  induction sends using Multiset.induction_on with
  | empty => simp
  | cons call sends ih =>
    have hcall : call.passed c ≤ call.account.1 (.egress_queued_bytes c) := by
      unfold SendCall.passed SendCall.account
      cases call.point <;> simp [SendPoint.account, occupies]
    simpa using Nat.add_le_add hcall ih

/-- What is queued and what was let through is on the gauge. -/
theorem Books.reserved (h : Books s trace) (hruns : s.worker ≠ .Exited) :
    ((s.egress c).map List.length).sum + (s.sends.map (SendCall.passed c)).sum ≤
      s.metrics.gauge (.egress_queued_bytes c) := by
  have hpassed := passed_le c s.sends
  rw [h.gauge hruns]
  simp only [queued, Driver.account, Prod.fst_add, Pi.add_apply]
  omega

theorem Limits.frame (h : Limits config s) (hconfig : s'.config = s.config)
    (hegress : s'.egress = s.egress) (hruns : s'.worker ≠ .Exited → s.worker ≠ .Exited)
    (hpassed : ∀ c, (s'.sends.map (SendCall.passed c)).sum ≤ (s.sends.map (SendCall.passed c)).sum) :
    Limits config s' := by
  refine ⟨hconfig.trans h.config_eq, by simpa [hegress] using h.packets, fun hworker c => ?_⟩
  have hbytes := h.bytes (hruns hworker) c
  have hle := hpassed c
  rw [hegress]
  omega

theorem checked_passed (call : SendCall) :
    SendCall.passed c { call with point := call.checked config } = 0 := by
  fun_cases SendCall.checked config call <;> rfl

theorem sender_limits (h : Limits config s) (hbooks : Books s trace) {call : SendCall}
    {point : Option SendPoint} (hmem : call ∈ s.sends) (hstep : call.step s = (s', point, out)) :
    Limits config { s' with
      sends := (point.elim 0 fun point => {{ call with point }}) + s.sends.erase call } := by
  have hsum := fun c => Multiset.sum_map_erase (f := SendCall.passed c) hmem
  revert hstep
  fun_cases SendCall.step s call with
  | case4 hpoint =>
    rintro ⟨⟩
    refine h.frame rfl rfl id (fun c' => ?_)
    rw [← hsum c']
    simp [checked_passed]
  | case5 length c hpoint previous_bytes =>
    rintro ⟨⟩
    split
    case isTrue hover =>
      refine h.frame rfl rfl id (fun c' => ?_)
      rw [← hsum c']
      simp [SendCall.passed]
    case isFalse hover =>
      -- the gauge has what is queued and all that was let through, and room for the packet
      refine ⟨h.config_eq, h.packets, fun hworker c' => ?_⟩
      have hbytes := h.bytes hworker c'
      have hreserved := hbooks.reserved (c := c) hworker
      rw [← hsum] at hbytes hreserved
      rw [h.config_eq] at hover
      simp only [SendCall.passed, hpoint] at hbytes hreserved
      by_cases hc : c = c'
      · subst hc
        simp only [Option.elim_some, Multiset.singleton_add, Multiset.map_cons, Multiset.sum_cons,
          SendCall.passed, if_pos]
        omega
      · simpa [SendCall.passed, hc] using hbytes
  | case6 c hpoint =>
    rintro ⟨⟩
    refine h.frame rfl rfl id (fun c' => ?_)
    rw [← hsum c']
    simp [SendCall.passed, hpoint]
  | case8 c hpoint hroom hworker =>
    rintro ⟨⟩
    refine ⟨h.config_eq, fun c' => ?_, fun _ c' => ?_⟩
    · have hpackets := h.packets c'
      rw [h.config_eq] at hroom
      by_cases hc : c' = c
      · subst hc
        simpa using Nat.succ_le_of_lt hroom
      · simpa [hc] using hpackets
    · have hbytes := h.bytes hworker c'
      rw [← hsum] at hbytes
      simp only [SendCall.passed, hpoint] at hbytes
      by_cases hc : c' = c
      · subst hc
        simpa [SendCall.passed, Nat.add_assoc] using hbytes
      · simpa [SendCall.passed, hc, Ne.symm hc] using hbytes
  | _ =>
    rintro ⟨⟩
    refine h.frame rfl rfl id (fun c' => ?_)
    rw [← hsum c']
    simp [SendCall.passed]

theorem exit_limits (h : Limits config s) : Limits config (exit_loop s) :=
  ⟨h.config_eq, fun _ => Nat.zero_le _, fun hworker => absurd rfl hworker⟩

theorem work_limits (h : Limits config s) (hstep : work s = some s') : Limits config s' := by
  have hruns := work_runs hstep
  revert hstep
  fun_cases work s with
  | case6 | case11 | case18 => simp
  | case4 c rest hworker packet queue hegress =>
    rintro ⟨⟩
    refine ⟨h.config_eq, fun c' => ?_, fun _ c' => ?_⟩
    · have hpackets := h.packets c'
      by_cases hc : c' = c
      · subst hc
        rw [hegress, List.length_cons] at hpackets
        simpa using Nat.le_of_succ_le hpackets
      · simpa [hc] using hpackets
    · have hbytes := h.bytes hruns c'
      by_cases hc : c' = c
      · subst hc
        rw [hegress, List.map_cons, List.sum_cons] at hbytes
        simp only [Function.update_self]
        omega
      · simpa [hc] using hbytes
  | case17 hworker =>
    rintro ⟨⟩
    exact exit_limits h
  | case9 message hworker | case10 c message hworker =>
    rintro ⟨⟩
    rw [set_failure_eq]
    exact h.frame rfl rfl (fun _ => hruns) (fun _ => le_rfl)
  | _ =>
    rintro ⟨⟩
    exact h.frame rfl rfl (fun _ => hruns) (fun _ => le_rfl)

theorem step_limits (h : Limits config s) (hbooks : Books s trace) (hmoved : Moved s s' out) :
    Limits config s' := by
  cases hmoved with
  | Send traffic_class packet =>
    exact h.frame rfl rfl id (fun c => by simp [SendCall.passed])
  | Sender hmem hstep => exact sender_limits h hbooks hmem hstep
  | Owner hstep =>
    obtain ⟨metrics, ingress, owner, rfl⟩ := owner_step_frame hstep
    exact h.frame rfl rfl id (fun _ => le_rfl)
  | Work hstep => exact work_limits h hstep
  | Written answer hworker =>
    exact h.frame rfl rfl (fun _ => by simp [hworker]) (fun _ => le_rfl)
  | Read answer hworker =>
    obtain ⟨metrics, worker, hread⟩ := read_frame s answer
    rw [hread]
    exact h.frame rfl rfl (fun _ => by simp [hworker]) (fun _ => le_rfl)
  | Receive | Cancel | Shutdown => exact h.frame rfl rfl id (fun _ => le_rfl)

end Limits

/-! ## Calls that start after the failure -/

/-- If the call has started after a failure, it is about to find it or to return it. -/
def SendCall.Late (failure : Option DriverFailure) (call : SendCall) : Prop :=
  ∀ found, call.started = some found → failure = some found ∧
    (call.point = .ReadFailure ∨ call.point = .Finish [] (.error (terminal_error found)))

def OwnerPoint.Late (failure : Option DriverFailure) : OwnerPoint → Prop
  | .Idle => True
  | .ReadFailure _ started => ∀ found, started = some found → failure = some found
  | .Receive _ started | .Disconnected _ started => started = none
  | .Finish ops started result => ∀ found, started = some found →
    failure = some found ∧ ops = [] ∧ result = .error (terminal_error found)

theorem OwnerPoint.Late.mono {failure failure' : Option DriverFailure} {owner : OwnerPoint}
    (h : owner.Late failure) (hstays : ∀ found, failure = some found → failure' = some found) :
    owner.Late failure' := by
  cases owner with
  | Idle | Receive | Disconnected => exact h
  | ReadFailure waits started => exact fun found hfound => hstays found (h found hfound)
  | Finish ops started result =>
    exact fun found hfound => (h found hfound).imp_left (hstays found)

/-- A call that has returned has returned the failure that it has started after. -/
def Trace.Told : Trace → Prop
  | .Sent (some found) result => result = .error (terminal_error found)
  | .Received (some found) result => result = .error (terminal_error found)
  | _ => True

structure Returns (s : Driver) (trace : List Trace) : Prop where
  sends : ∀ call ∈ s.sends, call.Late s.failure
  owner : s.owner.Late s.failure
  told : ∀ seen ∈ trace, seen.Told

section Returns

variable {s s' : Driver} {trace out : List Trace} {found : DriverFailure}

theorem SendCall.step_told {call : SendCall} {point : Option SendPoint}
    (h : call.step s = (s', point, out)) (hlate : call.Late s.failure) :
    (∀ point' ∈ point, SendCall.Late s.failure { call with point := point' }) ∧
      ∀ seen ∈ out, seen.Told := by
  cases hstarted : call.started with
  | none =>
    refine ⟨fun point' _ found hfound => by simp at hfound, ?_⟩
    revert h
    fun_cases SendCall.step s call <;> rintro ⟨⟩ <;> simp [Trace.Told, hstarted]
  | some found =>
    obtain ⟨hfailure, hpoint | hpoint⟩ := hlate found hstarted
    · simp only [SendCall.step, hpoint, hfailure] at h
      obtain ⟨rfl, rfl, rfl⟩ := h
      simp [SendCall.Late, hfailure]
    · simp only [SendCall.step, hpoint] at h
      obtain ⟨rfl, rfl, rfl⟩ := h
      simp [Trace.Told, hstarted]

theorem owner_step_told (h : owner_step s = some (s', out)) (hlate : s.owner.Late s.failure) :
    s'.owner.Late s.failure ∧ ∀ seen ∈ out, seen.Told := by
  revert h
  fun_cases owner_step s with
  | case1 | case6 => simp
  | case2 waits started howner failure hfailure =>
    rintro ⟨⟩
    rw [howner] at hlate
    refine ⟨fun found hfound => ?_, by simp⟩
    have hsame := hlate found hfound
    rw [hfailure, Option.some.injEq] at hsame
    simp [hfailure, hsame]
  | case3 waits started howner hfailure =>
    rintro ⟨⟩
    rw [howner] at hlate
    cases started with
    | none => exact ⟨rfl, by simp⟩
    | some found => simp [hlate found rfl] at hfailure
  | case4 waits started howner | case5 waits started howner | case7 waits started howner
  | case8 waits started howner | case9 waits started howner =>
    rintro ⟨⟩
    rw [howner] at hlate
    have hstarted : started = none := hlate
    simp [OwnerPoint.Late, hstarted]
  | case10 op ops started result howner =>
    rintro ⟨⟩
    rw [howner] at hlate
    refine ⟨fun found hfound => ?_, by simp⟩
    obtain ⟨-, hops, -⟩ := hlate found hfound
    cases hops
  | case11 started result howner =>
    rintro ⟨⟩
    rw [howner] at hlate
    refine ⟨trivial, ?_⟩
    cases started with
    | none => simp [Trace.Told]
    | some found => simpa [Trace.Told] using (hlate found rfl).2.2

theorem work_failure (hstep : work s = some s') (hfailure : s.failure = some found) :
    s'.failure = some found := by
  revert hstep
  fun_cases work s with
  | case6 | case11 | case18 => simp
  | case9 | case10 =>
    rintro ⟨⟩
    rw [set_failure_eq, hfailure]
    rfl
  | _ =>
    rintro ⟨⟩
    exact hfailure

/-- The first failure stays. -/
theorem failure_stays (hmoved : Moved s s' out) (hfailure : s.failure = some found) :
    s'.failure = some found := by
  cases hmoved with
  | Send | Receive | Cancel | Shutdown | Written => exact hfailure
  | Sender hmem hstep =>
    obtain ⟨metrics, egress, rfl⟩ := SendCall.step_frame hstep
    exact hfailure
  | Owner hstep =>
    obtain ⟨metrics, ingress, owner, rfl⟩ := owner_step_frame hstep
    exact hfailure
  | Work hstep =>
    exact work_failure hstep hfailure
  | Read answer hworker =>
    obtain ⟨metrics, worker, hread⟩ := read_frame s answer
    rw [hread]
    exact hfailure

theorem step_returns (h : Returns s trace) (hmoved : Moved s s' out) : Returns s' (trace ++ out) := by
  have hstays : ∀ found, s.failure = some found → s'.failure = some found :=
    fun found => failure_stays hmoved
  cases hmoved with
  | Send traffic_class packet =>
    refine ⟨?_, h.owner, by simpa using h.told⟩
    simp only [Multiset.mem_cons, forall_eq_or_imp]
    exact ⟨fun found hfound => ⟨hfound, .inl rfl⟩, h.sends⟩
  | Sender hmem hstep =>
    rename_i call s₁ point
    obtain ⟨hpoint, hout⟩ := SendCall.step_told hstep (h.sends call hmem)
    obtain ⟨metrics, egress, rfl⟩ := SendCall.step_frame hstep
    refine ⟨fun call' hmem' => ?_, h.owner, ?_⟩
    · rcases Multiset.mem_add.mp hmem' with hnew | hold
      · cases point with
        | none => simp at hnew
        | some point =>
          rw [Option.elim_some, Multiset.mem_singleton] at hnew
          rw [hnew]
          exact hpoint point rfl
      · exact h.sends call' (Multiset.mem_of_mem_erase hold)
    · exact List.forall_mem_append.mpr ⟨h.told, hout⟩
  | Receive waits howner =>
    exact ⟨h.sends, fun found hfound => hfound, by simpa using h.told⟩
  | Cancel => exact ⟨h.sends, trivial, by simpa using h.told⟩
  | Owner hstep =>
    obtain ⟨howner, hout⟩ := owner_step_told hstep h.owner
    obtain ⟨metrics, ingress, owner, rfl⟩ := owner_step_frame hstep
    exact ⟨h.sends, howner, List.forall_mem_append.mpr ⟨h.told, hout⟩⟩
  | Work hstep =>
    obtain ⟨metrics, failure, egress, ingress, worker, rfl⟩ := work_frame hstep
    rw [List.append_nil]
    refine ⟨fun call hmem found hfound => ?_, ?_, h.told⟩
    · obtain ⟨hfailure, hpoint⟩ := h.sends call hmem found hfound
      exact ⟨hstays found hfailure, hpoint⟩
    · exact h.owner.mono hstays
  | Written answer hworker =>
    refine ⟨h.sends, h.owner, List.forall_mem_append.mpr ⟨h.told, ?_⟩⟩
    split <;> simp [Trace.Told]
  | Read answer hworker =>
    obtain ⟨metrics, worker, hread⟩ := read_frame s answer
    rw [hread, List.append_nil]
    exact ⟨h.sends, h.owner, h.told⟩
  | Shutdown => exact ⟨h.sends, h.owner, by simpa using h.told⟩

end Returns

end StreamGuard.Tun
