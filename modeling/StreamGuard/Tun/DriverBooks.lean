/-
The books of the TUN driver.

A party that is in the middle of something is ahead of the gauges with what it has added and not
enqueued, and behind the counters with what it has not counted yet. With these accounts added up the
books balance in every state, and where nobody is in the middle of anything the accounts are empty.
-/
import Mathlib.Algebra.BigOperators.Group.Multiset.Basic
import Mathlib.Algebra.Group.Prod
import StreamGuard.Tun.DriverSteps

set_option autoImplicit false

namespace StreamGuard.Tun

open StreamGuard StreamGuard.Lib

/-! ## Accounts -/

/-- What a party has on the gauges, what it owes to the counters, and how many packets it has read
and not dealt with. -/
abbrev Account := (Gauge → ℕ) × (Counter → ℕ) × ℕ

def ops_account (ops : List Op) : Account :=
  (fun g => released g ops, fun k => added k ops, 0)

/-- What a queued packet is on the gauges of its queue. -/
def occupies (packets bytes : Gauge) (length : ℕ) (g : Gauge) : ℕ :=
  (if bytes = g then length else 0) + if packets = g then 1 else 0

def SendPoint.account (length : ℕ) : SendPoint → Account
  | .CountPacket c => (fun g => if .egress_queued_bytes c = g then length else 0, 0, 0)
  | .TrySend c => (occupies (.egress_queued_packets c) (.egress_queued_bytes c) length, 0, 0)
  | .Finish ops _ => ops_account ops
  | .ReadFailure | .LoadShutdown | .Reserve _ => 0

def SendCall.account (call : SendCall) : Account := call.point.account call.packet.length

def OwnerPoint.account : OwnerPoint → Account
  | .Finish ops _ _ => ops_account ops
  | .Idle | .ReadFailure _ _ | .Receive _ _ | .Disconnected _ _ => 0

def WorkerPoint.account : WorkerPoint → Account
  | .Write _ _ _ ops | .Settle ops _ => ops_account ops
  | .Reserve _ => (0, 0, 1)
  | .CountPacket packet =>
    (fun g => if .ingress_queued_bytes = g then packet.length else 0, 0, 1)
  | .TrySend packet => (occupies .ingress_queued_packets .ingress_queued_bytes packet.length, 0, 1)
  | .LoadShutdown _ | .ReadFailure _ | .TryRecv _ _ | .Read | .Leaving | .Exited => 0

/-- What there is to be gauged. -/
def queued (egress : DataClass → List Bytes) (ingress : List Bytes) : Gauge → ℕ
  | .ingress_queued_packets => ingress.length
  | .ingress_queued_bytes => (ingress.map List.length).sum
  | .egress_queued_packets c => (egress c).length
  | .egress_queued_bytes c => ((egress c).map List.length).sum

section Queued

variable {egress : DataClass → List Bytes} {ingress queue : List Bytes} {c : DataClass}
  {packet : Bytes} {g : Gauge}

theorem queued_enqueue : queued (Function.update egress c (egress c ++ [packet])) ingress g =
    queued egress ingress g +
      occupies (.egress_queued_packets c) (.egress_queued_bytes c) packet.length g := by
  cases g with
  | ingress_queued_packets | ingress_queued_bytes => simp [queued, occupies]
  | egress_queued_packets c' | egress_queued_bytes c' =>
    by_cases h : c' = c
    · simp [queued, occupies, h]
    · simp [queued, occupies, h, Ne.symm h]

theorem queued_dequeue (hcons : egress c = packet :: queue) : queued egress ingress g =
    queued (Function.update egress c queue) ingress g +
      occupies (.egress_queued_packets c) (.egress_queued_bytes c) packet.length g := by
  cases g with
  | ingress_queued_packets | ingress_queued_bytes => simp [queued, occupies]
  | egress_queued_packets c' | egress_queued_bytes c' =>
    by_cases h : c' = c
    · simp [queued, occupies, h, hcons, Nat.add_comm]
    · simp [queued, occupies, h, Ne.symm h]

theorem queued_deliver : queued egress (ingress ++ [packet]) g = queued egress ingress g +
    occupies .ingress_queued_packets .ingress_queued_bytes packet.length g := by
  cases g <;> simp [queued, occupies]

theorem queued_receive : queued egress (packet :: queue) g = queued egress queue g +
    occupies .ingress_queued_packets .ingress_queued_bytes packet.length g := by
  cases g <;> simp [queued, occupies, Nat.add_comm]

end Queued

namespace Driver

def account (s : Driver) : Account :=
  (s.sends.map SendCall.account).sum + s.worker.account + s.owner.account

/-- What a counter comes to when everything that is owed to it is counted. -/
def due (s : Driver) (k : Counter) : ℕ := s.metrics.counter k + s.account.2.1 k

end Driver

/-- The packets that were read and dealt with. -/
def dealt_with (count : Counter → ℕ) : ℕ :=
  count .ingress_delivered + count .ingress_dropped_packet_limit +
    count .ingress_dropped_byte_limit + count .ingress_dropped_oversize

/-- **The books.** The queues are what the gauges say as long as the worker runs. -/
structure Books (s : Driver) (trace : List Trace) : Prop where
  gauge : s.worker ≠ .Exited → ∀ g, s.metrics.gauge g =
    queued s.egress s.ingress g + s.account.1 g
  enqueued : ∀ c, s.due (.egress_enqueued c) = (accepted c trace).length
  written : ∀ c, s.due (.egress_written c) = (wrote c trace).length
  ingress : s.due .ingress_received = dealt_with s.due + s.account.2.2

/-! ## One party moves -/

/-- A step of one party, with its accounts before and after: what it takes off its account is
accounted for. -/
structure Balanced (s s' : Driver) (a a' : Account) (out : List Trace) : Prop where
  gauge : s'.worker ≠ .Exited → ∀ g, a.1 g ≤ s.metrics.gauge g →
    s'.metrics.gauge g + queued s.egress s.ingress g + a.1 g =
      s.metrics.gauge g + queued s'.egress s'.ingress g + a'.1 g
  enqueued : ∀ c, s'.metrics.counter (.egress_enqueued c) + a'.2.1 (.egress_enqueued c) =
    s.metrics.counter (.egress_enqueued c) + a.2.1 (.egress_enqueued c) + (accepted c out).length
  written : ∀ c, s'.metrics.counter (.egress_written c) + a'.2.1 (.egress_written c) =
    s.metrics.counter (.egress_written c) + a.2.1 (.egress_written c) + (wrote c out).length
  ingress : s'.metrics.counter .ingress_received + a'.2.1 .ingress_received +
      (dealt_with s.metrics.counter + dealt_with a.2.1) + a.2.2 =
    s.metrics.counter .ingress_received + a.2.1 .ingress_received +
      (dealt_with s'.metrics.counter + dealt_with a'.2.1) + a'.2.2

section Balanced

variable {s s' : Driver} {a a' rest : Account} {trace out : List Trace} {op : Op} {ops : List Op}

/-- The books after a step, where `rest` are the accounts of the others. -/
theorem Books.move (h : Books s trace) (hbalanced : Balanced s s' a a' out)
    (hruns : s'.worker ≠ .Exited → s.worker ≠ .Exited) (hbefore : s.account = a + rest)
    (hafter : s'.account = a' + rest) : Books s' (trace ++ out) := by
  refine ⟨?_, ?_, ?_, ?_⟩
  · intro hrun g
    have hgauge := h.gauge (hruns hrun) g
    simp only [hbefore, hafter, Prod.fst_add, Pi.add_apply] at hgauge ⊢
    have hmove := hbalanced.gauge hrun g (by omega)
    omega
  · intro c
    have hdue := h.enqueued c
    have hmove := hbalanced.enqueued c
    simp only [Driver.due, hbefore, hafter, Prod.snd_add, Prod.fst_add, Pi.add_apply,
      accepted_append, List.length_append] at hdue ⊢
    omega
  · intro c
    have hdue := h.written c
    have hmove := hbalanced.written c
    simp only [Driver.due, hbefore, hafter, Prod.snd_add, Prod.fst_add, Pi.add_apply,
      wrote_append, List.length_append] at hdue ⊢
    omega
  · have hdue := h.ingress
    have hmove := hbalanced.ingress
    simp only [dealt_with, Driver.due, hbefore, hafter, Prod.snd_add, Prod.fst_add,
      Pi.add_apply] at hdue hmove ⊢
    omega

/-- A step that touches nothing that is counted, between points with the same account. -/
theorem balanced_silent (hmetrics : s'.metrics = s.metrics) (hegress : s'.egress = s.egress)
    (hingress : s'.ingress = s.ingress) (haccount : a' = a) (haccepted : ∀ c, accepted c out = [])
    (hwrote : ∀ c, wrote c out = []) : Balanced s s' a a' out := by
  constructor <;> simp [hmetrics, hegress, hingress, haccount, haccepted, hwrote]

/-- An operation is done. -/
theorem balanced_apply (hmetrics : s'.metrics = s.metrics.apply op) (hegress : s'.egress = s.egress)
    (hingress : s'.ingress = s.ingress) :
    Balanced s s' (ops_account (op :: ops)) (ops_account ops) [] := by
  refine ⟨?_, ?_, ?_, ?_⟩
  · intro _ g hle
    simp only [ops_account, released_cons, hmetrics, hegress, hingress, Cells.apply_gauge] at hle ⊢
    omega
  · intro c
    simp only [ops_account, added_cons, hmetrics, Cells.apply_counter]
    simp [accepted, Nat.add_assoc]
  · intro c
    simp only [ops_account, added_cons, hmetrics, Cells.apply_counter]
    simp [wrote, Nat.add_assoc]
  · simp only [dealt_with, ops_account, added_cons, hmetrics, Cells.apply_counter]
    omega

/-- Accounts with the same on the counters that the books are about. -/
structure Alike (a a' : Account) : Prop where
  enqueued : ∀ c, a'.2.1 (.egress_enqueued c) = a.2.1 (.egress_enqueued c)
  written : ∀ c, a'.2.1 (.egress_written c) = a.2.1 (.egress_written c)
  received : a'.2.1 .ingress_received = a.2.1 .ingress_received
  dealt : dealt_with a'.2.1 + a'.2.2 = dealt_with a.2.1 + a.2.2

/-- A step that leaves the queues and the counters as they are: what it puts on a gauge it has on
its account from then on. -/
theorem balanced_of_gauge (hcounter : s'.metrics.counter = s.metrics.counter)
    (hegress : s'.egress = s.egress) (hingress : s'.ingress = s.ingress)
    (hgauge : ∀ g, s'.metrics.gauge g + a.1 g = s.metrics.gauge g + a'.1 g)
    (halike : Alike a a') : Balanced s s' a a' [] := by
  refine ⟨?_, ?_, ?_, ?_⟩
  · intro _ g _
    have h := hgauge g
    rw [hegress, hingress]
    omega
  · simp [hcounter, halike.enqueued]
  · simp [hcounter, halike.written]
  · have hdealt := halike.dealt
    simp only [hcounter, halike.received]
    omega

/-- The worker leaves: there are no gauges to be kept. -/
theorem balanced_exit (hworker : s'.worker = .Exited) (hmetrics : s'.metrics = s.metrics) :
    Balanced s s' 0 0 [] := by
  constructor <;> simp [hworker, hmetrics]

end Balanced

/-! ## Every party keeps its account -/

theorem checked_account (config : DriverConfig) (call : SendCall) (length : ℕ) :
    (∀ g, ((call.checked config).account length).1 g = 0) ∧
      Alike 0 ((call.checked config).account length) := by
  fun_cases SendCall.checked config call <;> refine ⟨?_, ?_, ?_, ?_, ?_⟩ <;>
    simp [SendPoint.account, ops_account, dealt_with]

theorem SendCall.balanced {s s' : Driver} {call : SendCall} {point : Option SendPoint}
    {out : List Trace} (sends : Multiset SendCall) (h : call.step s = (s', point, out)) :
    Balanced s { s' with sends } call.account
      (point.elim 0 (SendPoint.account call.packet.length)) out := by
  revert h
  unfold SendCall.account
  fun_cases SendCall.step s call with
  | case1 hpoint | case2 hpoint | case3 hpoint =>
    rintro ⟨⟩
    rw [hpoint]
    exact balanced_silent rfl rfl rfl rfl (by simp) (by simp)
  | case4 hpoint =>
    rintro ⟨⟩
    obtain ⟨hgauge, halike⟩ := checked_account s.config call call.packet.length
    rw [hpoint]
    refine balanced_of_gauge rfl rfl rfl (fun g => ?_) halike
    rw [Option.elim_some, hgauge]
    rfl
  | case5 length c hpoint previous_bytes =>
    rintro ⟨⟩
    rw [hpoint]
    refine balanced_of_gauge rfl rfl rfl (fun g => ?_) ⟨?_, ?_, ?_, ?_⟩ <;>
      split <;> simp [SendPoint.account, ops_account, dealt_with, length]
  | case6 c hpoint =>
    rintro ⟨⟩
    rw [hpoint]
    refine balanced_of_gauge rfl rfl rfl ?_ ⟨?_, ?_, ?_, ?_⟩ <;>
      simp [SendPoint.account, occupies, dealt_with]
    omega
  | case7 length c hpoint hworker =>
    rintro ⟨⟩
    rw [hpoint]
    refine balanced_of_gauge rfl rfl rfl ?_ ⟨?_, ?_, ?_, ?_⟩ <;>
      simp [SendPoint.account, ops_account, occupies, dealt_with, length]
  | case8 c hpoint hroom hworker =>
    rintro ⟨⟩
    rw [hpoint]
    refine ⟨fun _ g _ => ?_, ?_, ?_, ?_⟩
    · rw [queued_enqueue]
      simp only [SendPoint.account, ops_account, Option.elim_some, released_cons, Fetch.subs_add,
        released_nil]
      omega
    · intro c'
      by_cases h : c = c' <;> simp [SendPoint.account, ops_account, h]
    all_goals simp [SendPoint.account, ops_account, dealt_with]
  | case9 length c hpoint hroom hworker =>
    rintro ⟨⟩
    rw [hpoint]
    refine balanced_of_gauge rfl rfl rfl ?_ ⟨?_, ?_, ?_, ?_⟩ <;>
      simp [SendPoint.account, ops_account, occupies, dealt_with, length]
  | case10 op ops result hpoint =>
    rintro ⟨⟩
    rw [hpoint]
    exact balanced_apply rfl rfl rfl
  | case11 result hpoint =>
    rintro ⟨⟩
    rw [hpoint]
    exact balanced_silent rfl rfl rfl rfl (by simp) (by simp)


theorem owner_balanced {s s' : Driver} {out : List Trace} (h : owner_step s = some (s', out)) :
    Balanced s s' s.owner.account s'.owner.account out := by
  revert h
  fun_cases owner_step s with
  | case1 | case6 => simp
  | case2 waits started howner | case3 waits started howner | case5 waits started howner
  | case7 waits started howner | case8 waits started howner | case9 waits started howner =>
    rintro ⟨⟩
    rw [howner]
    exact balanced_silent rfl rfl rfl rfl (by simp) (by simp)
  | case4 waits started howner packet rest hingress =>
    rintro ⟨⟩
    rw [howner]
    refine ⟨fun _ g _ => ?_, ?_, ?_, ?_⟩
    · rw [hingress, queued_receive]
      simp only [OwnerPoint.account, ops_account, released_cons, Fetch.subs_sub, released_nil,
        occupies, Pi.zero_apply, Prod.fst_zero]
      omega
    all_goals simp [OwnerPoint.account, ops_account, dealt_with]
  | case10 op ops started result howner =>
    rintro ⟨⟩
    rw [howner]
    exact balanced_apply rfl rfl rfl
  | case11 started result howner =>
    rintro ⟨⟩
    rw [howner]
    exact balanced_silent rfl rfl rfl rfl (by simp) (by simp)

theorem break_account (phase : Phase) : (break_at phase).account = 0 := by
  cases phase <;> rfl

theorem proceed_account (phase : Phase) : (proceed phase).account = 0 := by
  cases phase <;> rfl

theorem work_balanced {s s' : Driver} (h : work s = some s') :
    Balanced s s' s.worker.account s'.worker.account [] := by
  revert h
  fun_cases work s with
  | case6 | case11 | case18 => simp
  | case1 phase hworker | case2 phase hworker =>
    rintro ⟨⟩
    rw [hworker]
    refine balanced_silent rfl rfl rfl ?_ (by simp) (by simp)
    dsimp only
    split
    · exact break_account phase
    · first | rfl | exact proceed_account phase
  | case3 c rest hworker =>
    rintro ⟨⟩
    rw [hworker]
    exact balanced_silent rfl rfl rfl rfl (by simp) (by simp)
  | case4 c rest hworker packet queue hegress =>
    rintro ⟨⟩
    rw [hworker]
    refine ⟨fun _ g _ => ?_, ?_, ?_, ?_⟩
    · rw [queued_dequeue hegress]
      simp only [WorkerPoint.account, ops_account, released_cons, Fetch.subs_sub, released_nil,
        occupies, Pi.zero_apply, Prod.fst_zero]
      omega
    all_goals simp [WorkerPoint.account, ops_account, dealt_with]
  | case5 c rest packet op ops hworker =>
    rintro ⟨⟩
    rw [hworker]
    exact balanced_apply rfl rfl rfl
  | case7 op ops next hworker =>
    rintro ⟨⟩
    rw [hworker]
    exact balanced_apply rfl rfl rfl
  | case8 phase hworker =>
    rintro ⟨⟩
    rw [hworker]
    exact balanced_silent rfl rfl rfl rfl (by simp) (by simp)
  | case9 message hworker =>
    rintro ⟨⟩
    rw [hworker]
    rw [set_failure_eq]
    exact balanced_silent rfl rfl rfl rfl (by simp) (by simp)
  | case10 c message hworker =>
    rintro ⟨⟩
    rw [hworker]
    rw [set_failure_eq]
    exact balanced_silent rfl rfl rfl rfl (by simp) (by simp)
  | case16 hworker =>
    rintro ⟨⟩
    rw [hworker]
    exact balanced_silent rfl rfl rfl rfl (by simp) (by simp)
  | case17 hworker =>
    rintro ⟨⟩
    rw [hworker]
    exact balanced_exit rfl rfl
  | case12 packet hworker previous_bytes =>
    rintro ⟨⟩
    rw [hworker]
    refine balanced_of_gauge rfl rfl rfl (fun g => ?_) ⟨?_, ?_, ?_, ?_⟩ <;>
      split <;> simp [WorkerPoint.account, ops_account, dealt_with]
  | case13 packet hworker =>
    rintro ⟨⟩
    rw [hworker]
    refine balanced_of_gauge rfl rfl rfl (fun g => ?_) ⟨?_, ?_, ?_, ?_⟩ <;>
      simp [WorkerPoint.account, occupies, dealt_with]
    omega
  | case14 packet hworker hroom =>
    rintro ⟨⟩
    rw [hworker]
    refine ⟨fun _ g _ => ?_, ?_, ?_, ?_⟩
    · rw [queued_deliver]
      simp only [WorkerPoint.account, ops_account, released_cons, Fetch.subs_add, released_nil]
      omega
    all_goals simp [WorkerPoint.account, ops_account, dealt_with]
    omega
  | case15 packet hworker hroom =>
    rintro ⟨⟩
    rw [hworker]
    refine balanced_of_gauge rfl rfl rfl (fun g => ?_) ⟨?_, ?_, ?_, ?_⟩ <;>
      simp [WorkerPoint.account, ops_account, occupies, dealt_with]

theorem written_balanced (s : Driver) (c : DataClass) (rest : List DataClass) (packet : Bytes)
    (answer : Except String ℕ) :
    Balanced s { s with worker := written packet.length c rest answer } (ops_account [])
      (written packet.length c rest answer).account
      [if answer = .ok packet.length then .Wrote c packet else .WriteFailed c packet] := by
  fun_cases written packet.length c rest answer with
  | case1 =>
    refine ⟨?_, ?_, fun c' => ?_, ?_⟩
    · simp [WorkerPoint.account, ops_account]
    · simp [WorkerPoint.account, ops_account]
    · by_cases h : c = c' <;> simp [WorkerPoint.account, ops_account, h]
    · simp [WorkerPoint.account, ops_account, dealt_with]
  | case2 hexpected =>
    rw [if_neg (by simpa using hexpected)]
    constructor <;> simp [WorkerPoint.account, ops_account, dealt_with]
  | case3 n hexpected =>
    rw [if_neg (by simpa using hexpected)]
    constructor <;> simp [WorkerPoint.account, ops_account, dealt_with]
  | case4 error =>
    constructor <;> simp [WorkerPoint.account, ops_account, dealt_with]

theorem read_balanced (s : Driver) (answer : Except ReadError Bytes) :
    Balanced s (read s answer) 0 (read s answer).worker.account [] := by
  fun_cases read s answer with
  | case1 =>
    constructor <;> simp [WorkerPoint.account, ops_account, dealt_with]
  | case2 byte bytes =>
    constructor <;> split <;> simp [WorkerPoint.account, ops_account, dealt_with]
    all_goals omega
  | case3 | case4 =>
    constructor <;> simp [WorkerPoint.account]
  | case5 error =>
    constructor <;> simp [WorkerPoint.account, ops_account, dealt_with]

theorem Driver.account_worker (s : Driver) : s.account =
    s.worker.account + ((s.sends.map SendCall.account).sum + s.owner.account) := by
  rw [Driver.account, add_comm _ s.worker.account, add_assoc]

theorem Driver.account_sends {s : Driver} {call : SendCall} (hmem : call ∈ s.sends) :
    s.account = call.account +
      (((s.sends.erase call).map SendCall.account).sum + s.worker.account + s.owner.account) := by
  simp only [Driver.account, ← Multiset.sum_map_erase (f := SendCall.account) hmem, add_assoc]

/-- A step with nothing on account. -/
theorem Books.silent {s s' : Driver} {trace : List Trace} (h : Books s trace)
    (hmetrics : s'.metrics = s.metrics) (hegress : s'.egress = s.egress)
    (hingress : s'.ingress = s.ingress) (hworker : s'.worker = s.worker)
    (haccount : s'.account = s.account) : Books s' trace := by
  have hbalanced : Balanced s s' 0 0 [] :=
    balanced_silent hmetrics hegress hingress rfl (fun _ => rfl) (fun _ => rfl)
  rw [← List.append_nil trace]
  refine h.move hbalanced (fun hruns => by rwa [hworker] at hruns) (zero_add s.account).symm ?_
  rw [haccount, zero_add]

theorem step_books {s s' : Driver} {trace out : List Trace} (hbooks : Books s trace)
    (hmoved : Moved s s' out) : Books s' (trace ++ out) := by
  cases hmoved with
  | Send traffic_class packet =>
    rw [List.append_nil]
    refine hbooks.silent rfl rfl rfl rfl ?_
    simp [Driver.account, SendCall.account, SendPoint.account]
  | Sender hmem hstep =>
    rename_i call s₁ point
    have hbalanced := SendCall.balanced
      ((point.elim 0 fun point => {{ call with point }}) + s.sends.erase call) hstep
    obtain ⟨metrics, egress, rfl⟩ := SendCall.step_frame hstep
    refine hbooks.move hbalanced id (Driver.account_sends hmem) ?_
    cases point <;> simp [Driver.account, SendCall.account, add_assoc]
  | Receive waits howner =>
    rw [List.append_nil]
    refine hbooks.silent rfl rfl rfl rfl ?_
    simp [Driver.account, howner, OwnerPoint.account]
  | Owner hstep =>
    have hbalanced := owner_balanced hstep
    obtain ⟨metrics, ingress, owner, rfl⟩ := owner_step_frame hstep
    exact hbooks.move hbalanced id (add_comm _ _) (add_comm _ _)
  | Cancel howner =>
    rw [List.append_nil]
    refine hbooks.silent rfl rfl rfl rfl ?_
    simp [Driver.account, howner, OwnerPoint.account]
  | Work hstep =>
    have hbalanced := work_balanced hstep
    have hruns := work_runs hstep
    obtain ⟨metrics, failure, egress, ingress, worker, rfl⟩ := work_frame hstep
    exact hbooks.move hbalanced (fun _ => hruns) s.account_worker (Driver.account_worker _)
  | Written answer hworker =>
    rename_i c rest packet
    have hbefore := s.account_worker
    rw [hworker] at hbefore
    exact hbooks.move (written_balanced s c rest packet answer) (fun _ => by simp [hworker]) hbefore
      (Driver.account_worker _)
  | Read answer hworker =>
    have hbalanced := read_balanced s answer
    have hbefore := s.account_worker
    rw [hworker] at hbefore
    obtain ⟨metrics, worker, hread⟩ := read_frame s answer
    rw [hread] at hbalanced ⊢
    exact hbooks.move hbalanced (fun _ => by simp [hworker]) hbefore (Driver.account_worker _)
  | Shutdown =>
    rw [List.append_nil]
    exact hbooks.silent rfl rfl rfl rfl rfl

end StreamGuard.Tun
