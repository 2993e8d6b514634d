/-
Does the release quarantine drain?

While deletes succeed and nothing new is quarantined, every lock section leaves the
quarantine as it is or smaller (`Inner.Shrinks`), and the last section of a sweep
takes `MAX_RETRY_BATCH` due sessions off the retry order. `Pending` counts the
sweeps that have begun and not come to that section yet; the order and that count
together bound what is left, so after enough sweeps the order is empty.

A pool without a store never comes that far: the retry returns before it looks at
the order, and a lease that a closed session left in the quarantine stays there.
-/
import StreamGuard.Gateway.PoolLive

set_option autoImplicit false

namespace StreamGuard.Gateway

open StreamGuard StreamGuard.Lib

/-! ## The quarantine gets smaller -/

/-- The quarantine has lost leases at most, and the retry order is no longer. -/
structure Inner.Shrinks (inner inner' : Inner) : Prop where
  leases : ∀ id lease, inner'.release_pending.lookup id = some lease →
    inner.release_pending.lookup id = some lease
  order : inner'.release_order.length ≤ inner.release_order.length

section Shrinks

variable {inner inner' inner'' : Inner}

theorem Inner.Shrinks.refl (inner : Inner) : inner.Shrinks inner := ⟨fun _ _ h => h, le_rfl⟩

theorem Inner.Shrinks.trans (h : inner.Shrinks inner') (h' : inner'.Shrinks inner'') :
    inner.Shrinks inner'' :=
  ⟨fun id lease hl => h.leases id lease (h'.leases id lease hl), h'.order.trans h.order⟩

/-- The fields of the quarantine are left alone. -/
theorem Inner.shrinks_of_eq (hquarantine : inner'.release_pending = inner.release_pending)
    (horder : inner'.release_order = inner.release_order) : inner.Shrinks inner' :=
  ⟨fun _ _ hl => hquarantine ▸ hl, Nat.le_of_eq (by rw [horder])⟩

end Shrinks

namespace AddressPool

variable {c : AddressPoolConfig} {inner inner' : Inner} {id : SessionId}

/-! ### The retry batch -/

theorem retry_select_le (quarantine : Map SessionId ReleasePendingLease) (now_ms max_batch : ℕ)
    (order : List SessionId) (inflight : Finset SessionId) (taken : ℕ) :
    (retry_select quarantine now_ms max_batch order inflight taken).2.length ≤ order.length := by
  induction order generalizing inflight taken with
  | nil => exact le_rfl
  | cons id order ih =>
    rw [retry_select]
    split
    · exact (ih inflight taken).trans (Nat.le_succ _)
    split
    · exact Nat.succ_le_succ (ih inflight taken)
    split
    · exact Nat.succ_le_succ (List.length_filter_le _ _)
    · exact (ih (insert id inflight) (taken + 1)).trans (Nat.le_succ _)

/-- **A batch of due sessions is full.** When everything queued is due and idle, the
selection takes as many sessions off the order as the batch has room for. -/
theorem retry_select_due {quarantine : Map SessionId ReleasePendingLease} {now_ms max_batch : ℕ}
    {order : List SessionId} {inflight : Finset SessionId} (taken : ℕ) (hnodup : order.Nodup)
    (hidle : ∀ id ∈ order, id ∉ inflight)
    (hdue : ∀ id ∈ order, ∃ lease, quarantine.lookup id = some lease ∧
      lease.next_retry_ms ≤ now_ms) :
    (retry_select quarantine now_ms max_batch order inflight taken).2.length =
      order.length - (max_batch - taken) := by
  induction order generalizing inflight taken with
  | nil => simp [retry_select]
  | cons id order ih =>
    obtain ⟨⟨lease, hl, hnow⟩, hdue⟩ := List.forall_mem_cons.mp hdue
    obtain ⟨hid, hidle⟩ := List.forall_mem_cons.mp hidle
    obtain ⟨hnew, hnodup⟩ := List.nodup_cons.mp hnodup
    have hready : ¬ (id ∈ inflight ∨ now_ms < lease.next_retry_ms) := by
      rintro (h | h)
      · exact hid h
      · omega
    rw [retry_select, hl]
    dsimp only
    rw [if_neg hready]
    split
    · -- the batch is full: what is left stays, and all of it is quarantined
      have hall : order.filter (fun id => decide (id ∈ quarantine)) = order := by
        rw [List.filter_eq_self]
        intro id' hid'
        obtain ⟨lease', hl', _⟩ := hdue id' hid'
        exact decide_eq_true (AList.mem_of_lookup hl')
      rw [hall, List.length_cons]
      omega
    · have hidle' : ∀ id' ∈ order, id' ∉ insert id inflight := by
        intro id' hid' hmem
        rcases Finset.mem_insert.mp hmem with rfl | hmem
        · exact hnew hid'
        · exact hidle id' hid' hmem
      dsimp only
      rw [ih (taken + 1) hnodup hidle' hdue, List.length_cons]
      omega

theorem retry_begin_order (durable : Bool) (inner : Inner) (now_ms max_batch : ℕ)
    (expired_ids : Option (List SessionId)) :
    (retry_begin durable inner now_ms max_batch expired_ids).inner.release_pending =
        inner.release_pending ∧
      (retry_begin durable inner now_ms max_batch expired_ids).inner.release_order =
        if durable then (retry_select inner.release_pending now_ms max_batch inner.release_order
          inner.inflight 0).2 else inner.release_order := by
  unfold retry_begin
  cases durable with
  | false => cases expired_ids <;> exact ⟨rfl, rfl⟩
  | true =>
    simp only [Bool.not_true, Bool.false_eq_true, if_false, if_true]
    split
    · cases expired_ids <;> exact ⟨rfl, rfl⟩
    · exact ⟨rfl, rfl⟩

theorem retry_begin_shrinks (durable : Bool) (now_ms max_batch : ℕ)
    (expired_ids : Option (List SessionId)) :
    inner.Shrinks (retry_begin durable inner now_ms max_batch expired_ids).inner := by
  obtain ⟨hquarantine, horder⟩ := retry_begin_order durable inner now_ms max_batch expired_ids
  refine ⟨fun _ _ hl => hquarantine ▸ hl, ?_⟩
  rw [horder]
  split
  · exact retry_select_le _ _ _ _ _ _
  · exact le_rfl

/-! ### First sections -/

theorem take_quarantine {lease : Lease} (ht : take inner id = some (inner', lease)) :
    inner.Shrinks inner' := by
  rw [take] at ht
  split at ht
  · obtain ⟨rfl, -⟩ := step_inj ht
    exact Inner.shrinks_of_eq rfl rfl
  split at ht
  · obtain ⟨rfl, -⟩ := step_inj ht
    exact Inner.shrinks_of_eq rfl rfl
  · contradiction

theorem begin_shrinks (durable : Bool) (call : PoolCall) :
    inner.Shrinks (begin_ c durable inner call).inner := by
  cases call with
  | reserve id device_id now =>
    have hnew : ∀ inner' : Inner, inner.Shrinks inner' →
        inner.Shrinks (reserve_new c inner' id device_id now).inner := by
      intro inner' h
      rw [reserve_new]
      split
      · exact h
      split
      · exact h
      · exact h.trans (Inner.shrinks_of_eq rfl rfl)
    rw [begin_, reserve_begin]
    dsimp only
    split
    · exact .refl inner
    split
    · exact .refl inner
    split
    · split <;> exact .refl inner
    split
    · split <;> exact .refl inner
    split
    · exact hnew inner (.refl inner)
    split
    · exact .refl inner
    split
    · exact .refl inner
    · exact hnew _ (Inner.shrinks_of_eq rfl rfl)
  | commit id now =>
    rw [begin_, commit_begin]
    split
    · exact .refl inner
    split
    · exact .refl inner
    split
    · exact .refl inner
    split
    · exact .refl inner
    dsimp only
    split
    · exact Inner.shrinks_of_eq rfl rfl
    · exact Inner.shrinks_of_eq rfl rfl
  | release_at id now_ms =>
    rw [begin_, release_begin]
    split
    · exact .refl inner
    split
    · exact .refl inner
    split
    · exact .refl inner
    · next ht => exact (take_quarantine ht).trans (Inner.shrinks_of_eq rfl rfl)
  | renew id now =>
    rw [begin_, renew_begin]
    split
    · exact .refl inner
    split
    · exact .refl inner
    split
    · exact .refl inner
    · exact Inner.shrinks_of_eq rfl rfl
  | sweep now_ms =>
    rw [begin_, sweep_begin]
    refine List.foldlRecOn (motive := fun taken : Inner => inner.Shrinks taken) _ _ (.refl inner) ?_
    intro taken hbefore e _
    refine hbefore.trans ?_
    rw [take_expired]
    split <;> exact Inner.shrinks_of_eq rfl rfl
  | retry_pending_releases_bounded now_ms max_batch =>
    exact retry_begin_shrinks durable now_ms max_batch none

/-! ### Later sections -/

theorem settle_expired_shrinks (now_ms : ℕ) (inner : Inner) (e : Expired) :
    inner.Shrinks (settle_expired c now_ms inner e true) :=
  Inner.shrinks_of_eq rfl rfl

theorem settle_retry_shrinks (now_ms : ℕ) (inner : Inner) (id : SessionId) :
    inner.Shrinks (settle_retry now_ms inner id true) :=
  ⟨fun _ _ hl => AList.lookup_of_erase hl, le_rfl⟩

/-- A plan that only deletes, and whose deletes have all succeeded. -/
theorem outcomes_true {ops : List StoreOp} {outcomes : List Bool}
    (hops : ∀ op ∈ ops, ∃ id, op = StoreOp.release id) (hlen : outcomes.length = ops.length)
    (hok : ∀ (i : ℕ) id, ops[i]? = some (StoreOp.release id) → outcomes[i]? = some true) :
    ∀ ok ∈ outcomes, ok = true := by
  intro ok hmem
  obtain ⟨i, hi, rfl⟩ := List.getElem_of_mem hmem
  have hi' : i < ops.length := by omega
  obtain ⟨id, hop⟩ := hops (ops[i]) (List.getElem_mem hi')
  have htrue := hok i id (by rw [List.getElem?_eq_getElem hi', hop])
  rw [List.getElem?_eq_getElem hi] at htrue
  exact Option.some.inj htrue

/-- **Later sections after successful deletes.** -/
theorem resume_shrinks (durable : Bool) {plan : Plan} {outcomes : List Bool}
    (hlen : outcomes.length = plan.store_ops.length)
    (hok : ∀ (i : ℕ) id, plan.store_ops[i]? = some (StoreOp.release id) →
      outcomes[i]? = some true) :
    inner.Shrinks (resume c durable inner outcomes plan).inner := by
  cases plan with
  | reserve id lease wall =>
    rw [resume, reserve_finish]
    split
    · exact Inner.shrinks_of_eq rfl rfl
    split
    · exact Inner.shrinks_of_eq rfl rfl
    · exact Inner.shrinks_of_eq rfl rfl
  | promote id pending mono wall =>
    rw [resume, promote_finish]
    split
    · exact Inner.shrinks_of_eq rfl rfl
    split
    · exact Inner.shrinks_of_eq rfl rfl
    · exact Inner.shrinks_of_eq rfl rfl
  | expire id pending now_ms =>
    have hhead : outcomes.headD true = true := by
      rw [List.headD_eq_head?_getD, List.head?_eq_getElem?, hok 0 id rfl, Option.getD_some]
    rw [resume, expire_finish, hhead, if_pos rfl]
    exact Inner.shrinks_of_eq rfl rfl
  | release id taken now_ms =>
    have hhead : outcomes.headD true = true := by
      rw [List.headD_eq_head?_getD, List.head?_eq_getElem?, hok 0 id rfl, Option.getD_some]
    rw [resume, release_finish, hhead, if_pos rfl]
    exact Inner.shrinks_of_eq rfl rfl
  | renew id active mono wall =>
    rw [resume, renew_finish]
    split
    · exact Inner.shrinks_of_eq rfl rfl
    split
    · split
      · exact Inner.shrinks_of_eq rfl rfl
      · exact Inner.shrinks_of_eq rfl rfl
    · exact Inner.shrinks_of_eq rfl rfl
  | sweep batch now_ms =>
    have hall := outcomes_true (by simp [Plan.store_ops]) hlen hok
    rw [resume, sweep_finish]
    refine List.foldlRecOn (motive := fun settled : Inner => inner.Shrinks settled) _ _
      (.refl inner) ?_
    intro settled hbefore e he
    refine hbefore.trans ?_
    rw [hall e.2 (List.of_mem_zip he).2]
    exact settle_expired_shrinks now_ms settled e.1
  | swept expired_ids now_ms => exact retry_begin_shrinks durable now_ms _ _
  | retry batch now_ms expired_ids =>
    have hall := outcomes_true (by simp [Plan.store_ops]) hlen hok
    have hsettled : inner.Shrinks ((batch.zip outcomes).foldl
        (fun inner e => settle_retry now_ms inner e.1 e.2) inner) := by
      refine List.foldlRecOn (motive := fun settled : Inner => inner.Shrinks settled) _ _
        (.refl inner) ?_
      intro settled hbefore e he
      refine hbefore.trans ?_
      rw [hall e.2 (List.of_mem_zip he).2]
      exact settle_retry_shrinks now_ms settled e.1
    rw [resume, retry_finish]
    cases expired_ids <;> exact hsettled

end AddressPool

/-! ## Sweeps that have not retried yet -/

/-- The call is a sweep from this time on. -/
def PoolLabel.sweeps (due : ℕ) : PoolLabel → Bool
  | .begin_ _ (.sweep now_ms) => due ≤ now_ms
  | _ => false

/-- The plan of such a sweep, before the section that retries. -/
def Plan.sweeping (due : ℕ) : Plan → ℕ
  | .sweep _ now_ms | .swept _ now_ms => if due ≤ now_ms then 1 else 0
  | _ => 0

namespace PoolSystem

variable {c : AddressPoolConfig} {s s' t : PoolSystem} {label : PoolLabel}
  {events : List PoolEvent} {due : ℕ}

/-- The running sweeps that still have to retry. -/
def sweeping (s : PoolSystem) (due : ℕ) : ℕ := s.running.sum (fun _ r => r.plan.sweeping due)

theorem sweeping_enter (caller : ℕ) (sec : Section) :
    (s.enter caller sec).sweeping due =
      sec.plan.elim 0 (Plan.sweeping due) +
        (s.running.erase caller).sum (fun _ r => r.plan.sweeping due) := by
  rw [sweeping, enter]
  cases sec.plan with
  | none => exact (Nat.zero_add _).symm
  | some plan => exact AList.sum_insert _ _ _ _

theorem sweeping_of_lookup {caller : ℕ} {r : Running} (hr : s.running.lookup caller = some r) :
    s.sweeping due = r.plan.sweeping due +
      (s.running.erase caller).sum (fun _ r => r.plan.sweeping due) :=
  (AList.sum_erase _ hr).symm

theorem sweeping_of_idle {caller : ℕ} (hidle : s.running.lookup caller = none) :
    s.sweeping due = (s.running.erase caller).sum (fun _ r => r.plan.sweeping due) := by
  rw [AList.erase_of_notMem (AList.lookup_eq_none.mp hidle)]
  rfl

/-! ## One step -/

/-- The delete that returns in this step has succeeded. -/
def deletes_succeed (s : PoolSystem) : PoolLabel → Prop
  | .store caller ok => ∀ r id, s.running.lookup caller = some r →
      r.plan.store_ops[r.outcomes.length]? = some (.release id) → ok = true
  | _ => True

/-- The step puts no lease into the quarantine. -/
def quarantines_none (s : PoolSystem) (label : PoolLabel) : Prop :=
  ∀ s' events, s.step label = some (s', events) →
    ∀ id ∈ s'.pool.inner.release_pending, id ∈ s.pool.inner.release_pending

/-- No delete of the call has failed so far. -/
def Running.Clean (r : Running) : Prop :=
  ∀ (i : ℕ) id, r.plan.store_ops[i]? = some (.release id) → ∀ ok, r.outcomes[i]? = some ok →
    ok = true

/-- What holds while the quarantine drains: no delete has failed, and everything
quarantined is due. -/
structure Clearing (c : AddressPoolConfig) (due : ℕ) (s : PoolSystem) : Prop where
  sound : s.Sound c
  clean : ∀ {caller r}, s.running.lookup caller = some r → Running.Clean r
  due : ∀ id lease, s.pool.inner.release_pending.lookup id = some lease → lease.next_retry_ms ≤ due

theorem clean_enter {caller : ℕ} {sec : Section}
    (h : ∀ {caller r}, s.running.lookup caller = some r → Running.Clean r) {caller' : ℕ} {r : Running}
    (hr : (s.enter caller sec).running.lookup caller' = some r) : Running.Clean r := by
  rw [enter_lookup] at hr
  split at hr
  · obtain ⟨plan, -, rfl⟩ := Option.map_eq_some_iff.mp hr
    intro i id _ ok hok
    simp at hok
  · exact h hr

/-- The step keeps the calls clean. -/
theorem Clearing.clean_step (h : s.Clearing c due) (hdel : s.deletes_succeed label)
    (hs : s.step label = some (s', events)) {caller : ℕ} {r : Running}
    (hr : s'.running.lookup caller = some r) : Running.Clean r := by
  cases step_steps hs with
  | begin_ call hidle => exact clean_enter h.clean hr
  | resume hr' hlen => exact clean_enter h.clean hr
  | release_deferred subject => exact h.clean hr
  | @store caller' r' op ok hr' hop =>
    rw [after_store, AList.lookup_insert_of] at hr
    split at hr
    · obtain rfl := Option.some.inj hr
      intro i id hi ok' hok
      rw [List.getElem?_append] at hok
      split at hok
      · exact h.clean hr' i id hi ok' hok
      · -- the outcome that has just come in
        rw [List.getElem?_singleton] at hok
        split at hok
        · next hlt hlast =>
          obtain rfl : i = r'.outcomes.length := by omega
          rw [← Option.some.inj hok]
          exact hdel r' id hr' hi
        · contradiction
    · exact h.clean hr

/-- A section of a clean call. -/
theorem Clearing.resume_shrinks (h : s.Clearing c due) {caller : ℕ} {r : Running}
    (hr : s.running.lookup caller = some r) (hlen : r.outcomes.length = r.plan.store_ops.length) :
    s.pool.inner.Shrinks
      (AddressPool.resume s.pool.config s.durable s.pool.inner r.outcomes r.plan).inner := by
  refine AddressPool.resume_shrinks s.durable hlen ?_
  intro i id hi
  have hlt : i < r.outcomes.length := by
    rw [hlen]
    exact (List.getElem?_eq_some_iff.mp hi).1
  rw [List.getElem?_eq_getElem hlt, h.clean hr i id hi _ (List.getElem?_eq_getElem hlt)]

/-- A deferred release either quarantines a lease or leaves the quarantine alone. -/
theorem release_deferred_shrinks {inner : Inner} {subject : SessionId}
    (hnone : ∀ id ∈ (AddressPool.release_deferred c inner subject).1.release_pending,
      id ∈ inner.release_pending) :
    inner.Shrinks (AddressPool.release_deferred c inner subject).1 := by
  revert hnone
  rw [AddressPool.release_deferred]
  split
  · exact fun _ => .refl inner
  next hidle =>
  split
  · exact fun _ => .refl inner
  next taken_out lease ht =>
  have htaken := AddressPool.take_quarantine ht
  split
  · next inner' he =>
    intro hnone
    rw [Inner.enqueue_release_locked] at he
    split at he
    · rwa [← Except.ok.inj he]
    split at he
    · contradiction
    · obtain rfl := Except.ok.inj he
      exact absurd (.inr (hnone subject ((AList.mem_insert _).mpr (.inl rfl)))) hidle
  · exact fun _ => htaken.trans (Inner.shrinks_of_eq rfl rfl)

/-- The plan of a first section is a sweep exactly when the call is. -/
theorem sweeping_begin (durable : Bool) (inner : Inner) (caller : ℕ) (call : PoolCall) :
    (AddressPool.begin_ c durable inner call).plan.elim 0 (Plan.sweeping due) =
      if (PoolLabel.begin_ caller call).sweeps due then 1 else 0 := by
  cases hplan : (AddressPool.begin_ c durable inner call).plan with
  | none => cases call <;> first | rfl | cases hplan
  | some plan =>
    have hstarts := AddressPool.begin_starts durable call hplan
    cases plan with
    | sweep batch now_ms =>
      obtain rfl : call = .sweep now_ms := hstarts
      simp [Plan.sweeping, PoolLabel.sweeps]
    | swept expired_ids now_ms => exact hstarts.elim
    | reserve id lease wall =>
      obtain ⟨device_id, now, rfl⟩ := hstarts
      rfl
    | promote id pending mono wall | expire id pending now_ms =>
      obtain ⟨now, rfl⟩ := hstarts
      rfl
    | release id taken now_ms =>
      obtain rfl : call = _ := hstarts
      rfl
    | renew id active mono wall =>
      obtain ⟨now, rfl⟩ := hstarts
      rfl
    | retry batch now_ms expired_ids =>
      obtain ⟨-, max_batch, rfl⟩ := hstarts
      rfl

/-- A sweep stays a sweep up to its retry. -/
theorem sweeping_resume (durable : Bool) (inner : Inner) (outcomes : List Bool) {plan : Plan}
    (hplan : ∀ expired_ids now_ms, plan = .swept expired_ids now_ms → now_ms < due) :
    plan.sweeping due ≤
      (AddressPool.resume c durable inner outcomes plan).plan.elim 0 (Plan.sweeping due) := by
  cases plan with
  | sweep batch now_ms => exact le_rfl
  | swept expired_ids now_ms =>
    have hearly := hplan expired_ids now_ms rfl
    have hzero : (Plan.swept expired_ids now_ms).sweeping due = 0 := if_neg (by omega)
    rw [hzero]
    exact Nat.zero_le _
  | _ => exact Nat.zero_le _

/-- What a step does to the retry order: it is empty, or every due sweep that has
come to its retry has taken a batch off. -/
structure Progress (due : ℕ) (s : PoolSystem) (label : PoolLabel) (s' : PoolSystem) : Prop where
  shrinks : s.pool.inner.Shrinks s'.pool.inner
  drained : s'.pool.inner.release_order.length = 0 ∨
    s'.pool.inner.release_order.length +
        MAX_RETRY_BATCH * ((if label.sweeps due then 1 else 0) + s.sweeping due) ≤
      s.pool.inner.release_order.length + MAX_RETRY_BATCH * s'.sweeping due

/-- **The retry of a due sweep takes a batch off the order.** -/
theorem Clearing.retry_takes (h : s.Clearing c due) {now_ms : ℕ} (hnow : due ≤ now_ms)
    (expired_ids : Option (List SessionId)) :
    (AddressPool.retry_begin true s.pool.inner now_ms MAX_RETRY_BATCH
      expired_ids).inner.release_order.length =
        s.pool.inner.release_order.length - MAX_RETRY_BATCH := by
  rw [(AddressPool.retry_begin_order true s.pool.inner now_ms MAX_RETRY_BATCH expired_ids).2,
    if_pos rfl]
  refine AddressPool.retry_select_due 0 h.sound.queue.nodup ?_ ?_
  · exact fun id hid => (h.sound.queue.listed.mp hid).2
  · intro id hid
    obtain ⟨lease, hl⟩ := AList.mem_iff_lookup.mp (h.sound.queue.listed.mp hid).1
    exact ⟨lease, hl, (h.due id lease hl).trans hnow⟩

/-- A step without failed deletes shrinks the quarantine, unless it is a deferred
release that adds to it. -/
theorem Clearing.shrinks (h : s.Clearing c due)
    (hquarantine : ∀ subject, label = .release_deferred subject → s.quarantines_none label)
    (hs : s.step label = some (s', events)) : s.pool.inner.Shrinks s'.pool.inner := by
  cases step_steps hs with
  | begin_ call hidle => exact AddressPool.begin_shrinks s.durable call
  | store ok hr hop => exact .refl _
  | resume hr hlen => exact h.resume_shrinks hr hlen
  | release_deferred subject => exact release_deferred_shrinks (hquarantine subject rfl _ _ hs)

theorem Clearing.step (h : s.Clearing c due) (hdel : s.deletes_succeed label)
    (hquarantine : ∀ subject, label = .release_deferred subject → s.quarantines_none label)
    (hs : s.step label = some (s', events)) : s'.Clearing c due := by
  refine ⟨h.sound.step hs, fun hr => h.clean_step hdel hs hr, ?_⟩
  intro id lease hl
  exact h.due id lease ((h.shrinks hquarantine hs).leases id lease hl)

/-- **Step lemma.** -/
theorem Clearing.progress (h : s.Clearing c due) (hdurable : s.durable = true)
    (hquarantine : s.quarantines_none label) (hs : s.step label = some (s', events)) :
    s.Progress due label s' := by
  have hshrinks := h.shrinks (fun _ _ => hquarantine) hs
  refine ⟨hshrinks, ?_⟩
  have horder := hshrinks.order
  cases step_steps hs with
  | @begin_ caller call hidle =>
    right
    rw [sweeping_enter, sweeping_begin s.durable s.pool.inner caller call, sweeping_of_idle hidle]
    exact Nat.add_le_add_right horder _
  | @store caller r op ok hr hop =>
    right
    have hsame : (s.after_store caller r op ok).sweeping due = s.sweeping due := by
      rw [sweeping_of_lookup hr]
      exact AList.sum_insert _ _ _ _
    rw [hsame]
    exact Nat.le_of_eq (by simp [PoolLabel.sweeps, after_store])
  | @resume caller r hr hlen =>
    rw [sweeping_enter, sweeping_of_lookup hr]
    change (AddressPool.resume s.pool.config s.durable s.pool.inner r.outcomes
        r.plan).inner.release_order.length = 0 ∨
      (AddressPool.resume s.pool.config s.durable s.pool.inner r.outcomes
        r.plan).inner.release_order.length + MAX_RETRY_BATCH * (0 + _) ≤ _
    by_cases hswept : ∃ expired_ids now_ms, r.plan = .swept expired_ids now_ms ∧ due ≤ now_ms
    · -- the section that retries
      obtain ⟨expired_ids, now_ms, hplan, hnow⟩ := hswept
      have hone : r.plan.sweeping due = 1 := by
        rw [hplan]
        exact if_pos hnow
      have hlen := h.retry_takes hnow (some expired_ids)
      rw [hone, hplan, hdurable, AddressPool.resume, hlen, Nat.zero_add, Nat.mul_add, Nat.mul_one,
        Nat.mul_add]
      omega
    · right
      have horder : (AddressPool.resume s.pool.config s.durable s.pool.inner r.outcomes
        r.plan).inner.release_order.length ≤ s.pool.inner.release_order.length := horder
      have hle : r.plan.sweeping due ≤ _ :=
        sweeping_resume (c := s.pool.config) s.durable s.pool.inner r.outcomes (by
          intro expired_ids now_ms hplan
          by_contra hnow
          exact hswept ⟨expired_ids, now_ms, hplan, by omega⟩)
      have hmul := Nat.mul_le_mul_left MAX_RETRY_BATCH hle
      rw [Nat.mul_add, Nat.mul_add, Nat.mul_add]
      omega
  | release_deferred subject =>
    right
    have hsame : s.sweeping due = sweeping { s with pool := { s.pool with
        inner := (AddressPool.release_deferred s.pool.config s.pool.inner subject).1 } } due := rfl
    rw [hsame]
    simpa [PoolLabel.sweeps] using horder

theorem step_durable (hs : s.step label = some (s', events)) : s'.durable = s.durable := by
  cases step_steps hs with
  | store ok hr hop =>
    rw [durable, after_store, Option.isSome_map]
    rfl
  | _ => rfl

/-! ## A run -/

/-- The conditions under which the quarantine should drain: deletes succeed and
nothing new is quarantined. -/
def Undisturbed (s : PoolSystem) (label : PoolLabel) : Prop :=
  s.deletes_succeed label ∧ s.quarantines_none label

/-- **Run lemma.** The order is empty, or it has lost a batch for every due sweep. -/
theorem Clearing.run {labels : List PoolLabel} (h : s.Clearing c due)
    (hdurable : s.durable = true) (hcond : Along PoolSystem.step Undisturbed s labels)
    (hrun : exec PoolSystem.step s labels = some (t, events)) :
    t.Clearing c due ∧ s.pool.inner.Shrinks t.pool.inner ∧
      (t.pool.inner.release_order.length = 0 ∨
        t.pool.inner.release_order.length +
            MAX_RETRY_BATCH * (labels.countP (PoolLabel.sweeps due) + s.sweeping due) ≤
          s.pool.inner.release_order.length + MAX_RETRY_BATCH * t.sweeping due) := by
  induction labels generalizing s events with
  | nil =>
    obtain ⟨rfl, -⟩ := step_inj hrun
    refine ⟨h, .refl _, .inr ?_⟩
    rw [List.countP_nil, Nat.zero_add]
  | cons label labels ih =>
    obtain ⟨s₁, o, o', hs, he, -⟩ := exec_cons_eq_some.mp hrun
    obtain ⟨⟨hdel, hquarantine⟩, hlater⟩ := (along_cons hs).mp hcond
    have hprogress := h.progress hdurable hquarantine hs
    obtain ⟨hend, hshrinks, hdrained⟩ :=
      ih (h.step hdel (fun _ _ => hquarantine) hs) ((step_durable hs).trans hdurable) hlater he
    refine ⟨hend, hprogress.shrinks.trans hshrinks, ?_⟩
    have horder := hshrinks.order
    rcases hdrained with hzero | hdrained
    · exact .inl hzero
    rcases hprogress.drained with hzero | hnow
    · exact .inl (by omega)
    right
    rw [List.countP_cons]
    simp only [Nat.mul_add] at hnow hdrained ⊢
    omega

/-- A system without running calls has nothing in flight. -/
theorem Coherent.not_inflight (h : s.Coherent) (hidle : s.running = ∅) (id : SessionId) :
    id ∉ s.pool.inner.inflight := by
  intro hid
  obtain ⟨p, hp⟩ := h.places id
  have hflag : p.slot.inflight = true := by
    rw [← hp.slot, Inner.slot]
    exact decide_eq_true hid
  rw [← Place.parked_isSome] at hflag
  obtain ⟨k, hk⟩ := Option.isSome_iff_exists.mp hflag
  obtain ⟨caller, r, hr, -⟩ := (hp.parks k).mpr hk
  rw [hidle] at hr
  contradiction

/-! ## What becomes of the addresses -/

/-- Session `id` has an Active or Reserved lease of these addresses. -/
def Live (s : PoolSystem) (id : SessionId) (a : AssignedAddresses) : Prop :=
  ∃ lease, (s.pool.inner.active.lookup id = some lease ∨
    s.pool.inner.pending.lookup id = some lease) ∧ lease.addresses = a

/-- A reserve of session `id` is among the calls. -/
def Reserves (id : SessionId) (labels : List PoolLabel) : Prop :=
  ∃ caller device_id now, .begin_ caller (.reserve id device_id now) ∈ labels

/-- **Where addresses come from.** What a session holds at the end of a run it has
reserved on the way, or it held it before, and then not in the quarantine unless
the lease is there still. -/
theorem held_run {labels : List PoolLabel} {id : SessionId} {p' : Place} {a : AssignedAddresses}
    (h : s.Coherent) (hrun : exec PoolSystem.step s labels = some (t, events)) (hp' : t.At id p')
    (ha : p'.addresses = some a) :
    Reserves id labels ∨
      ∃ p, s.At id p ∧ p.addresses = some a ∧ (p.Quarantined → p'.Quarantined) := by
  induction labels generalizing s events with
  | nil =>
    obtain ⟨rfl, -⟩ := step_inj hrun
    exact .inr ⟨p', hp', ha, fun hq => hq⟩
  | cons label labels ih =>
    obtain ⟨s₁, o, o', hs, he, -⟩ := exec_cons_eq_some.mp hrun
    obtain ⟨hcoherent, hcycle⟩ := step_refines h hs
    rcases ih hcoherent he with ⟨caller, device_id, now, hmem⟩ | ⟨p₁, hp₁, ha₁, hkept⟩
    · exact .inl ⟨caller, device_id, now, List.mem_cons_of_mem _ hmem⟩
    obtain ⟨p, hp⟩ := h.places id
    obtain ⟨p₂, hp₂, hc⟩ := hcycle id p hp
    obtain rfl := hp₁.unique hp₂
    rcases hc.addresses_kept ha₁ with hold | ⟨caller, call, rfl, ⟨device_id, now, rfl⟩, -⟩
    · refine .inr ⟨p, hp, hold, fun hq => hkept ?_⟩
      rcases hc.quarantined_kept hq with rfl | hq
      · contradiction
      · exact hq
    · exact .inl ⟨caller, device_id, now, List.mem_cons_self⟩

/-- The quarantine is empty, and an address is blocked only by a live lease: one
that was live before, or one that a session has reserved since. -/
structure Drained (s : PoolSystem) (labels : List PoolLabel) (t : PoolSystem) : Prop where
  empty : t.pool.inner.release_pending = ∅
  allocatable : ∀ x, t.pool.inner.Used x → ∃ id a, a.Has x ∧ t.Live id a ∧
    (s.Live id a ∨ Reserves id labels)

/-- At rest outside the quarantine, a lease is live. -/
theorem live_of_at {id : SessionId} {p : Place} {a : AssignedAddresses} (hp : s.At id p)
    (hrest : p.parked = none) (hq : ¬ p.Quarantined) (ha : p.addresses = some a) : s.Live id a := by
  have hactive : s.pool.inner.active.lookup id = p.slot.active := congrArg Slot.active hp.slot
  have hpending : s.pool.inner.pending.lookup id = p.slot.pending := congrArg Slot.pending hp.slot
  cases p with
  | reserved lease => exact ⟨lease, .inr hpending, Option.some.inj ha⟩
  | active lease => exact ⟨lease, .inl hactive, Option.some.inj ha⟩
  | quarantined lease | retrying lease => exact absurd trivial hq
  | _ => contradiction

theorem At.at_rest {id : SessionId} {p : Place} (hp : s.At id p) (hidle : s.running = ∅) :
    p.parked = none := by
  cases hk : p.parked with
  | none => rfl
  | some k =>
    obtain ⟨caller, r, hr, -⟩ := (hp.parks k).mpr hk
    rw [hidle] at hr
    contradiction

/-- An idle system with an empty quarantine blocks the addresses of live leases. -/
theorem drained_of_empty {labels : List PoolLabel} (h : s.Sound c) (hidle : s.running = ∅)
    (hrun : exec PoolSystem.step s labels = some (t, events)) (ht : t.Sound c)
    (htidle : t.running = ∅) (hempty : t.pool.inner.release_pending = ∅) :
    Drained s labels t := by
  refine ⟨hempty, ?_⟩
  intro x hx
  obtain ⟨id, p', a, hp', ha, hhas⟩ := held_of_used ht.coherent ht.owned hx
  have hnot : ¬ p'.Quarantined := by
    intro hq
    have hnone : t.pool.inner.release_pending.lookup id = p'.slot.quarantined :=
      congrArg Slot.quarantined hp'.slot
    rw [hempty] at hnone
    cases p' with
    | quarantined lease | retrying lease => contradiction
    | _ => exact hq
  refine ⟨id, a, hhas, live_of_at hp' (hp'.at_rest htidle) hnot ha, ?_⟩
  rcases held_run h.coherent hrun hp' ha with hreserves | ⟨p, hp, hold, hkept⟩
  · exact .inr hreserves
  · exact .inl (live_of_at hp (hp.at_rest hidle) (fun hq => hnot (hkept hq)) hold)

/-- **A durable pool drains.** -/
theorem drains_of_durable {labels : List PoolLabel} (h : s.Clearing c due)
    (hdurable : s.durable = true) (hidle : s.running = ∅)
    (hcond : Along PoolSystem.step Undisturbed s labels)
    (hsweeps : s.pool.inner.release_pending.len ≤
      MAX_RETRY_BATCH * labels.countP (PoolLabel.sweeps due))
    (hrun : exec PoolSystem.step s labels = some (t, events)) (htidle : t.running = ∅) :
    t.pool.inner.release_pending = ∅ := by
  obtain ⟨hend, -, hdrained⟩ := h.run hdurable hcond hrun
  -- the order names no more sessions than are quarantined
  have hstart : s.pool.inner.release_order.length ≤ s.pool.inner.release_pending.len := by
    have hsub : s.pool.inner.release_order ⊆ s.pool.inner.release_pending.keys := fun id hid =>
      AList.mem_keys.mpr (h.sound.queue.listed.mp hid).1
    have hle := (List.subperm_of_subset h.sound.queue.nodup hsub).length_le
    rwa [AList.keys, List.keys, List.length_map] at hle
  have hzero : t.pool.inner.release_order.length = 0 := by
    have hs : s.sweeping due = 0 := by
      rw [sweeping, hidle]
      rfl
    have ht : t.sweeping due = 0 := by
      rw [sweeping, htidle]
      rfl
    rw [hs, ht, Nat.add_zero, Nat.mul_zero, Nat.add_zero] at hdrained
    omega
  refine AList.eq_empty ?_
  intro id hid
  have hqueued := hend.sound.queue.listed.mpr
    ⟨hid, hend.sound.coherent.not_inflight htidle id⟩
  rw [List.length_eq_zero_iff.mp hzero] at hqueued
  contradiction

/-! ## A pool without a store -/

/-- No call is retrying a delete. -/
def Retryless (s : PoolSystem) : Prop :=
  ∀ caller r batch now_ms expired_ids, s.running.lookup caller = some r →
    r.plan ≠ .retry batch now_ms expired_ids

theorem Retryless.step (h : s.Retryless) (hephemeral : s.durable = false)
    (hs : s.step label = some (s', events)) : s'.Retryless := by
  have henter : ∀ {caller : ℕ} {sec : Section},
      (∀ batch now_ms expired_ids, sec.plan ≠ some (.retry batch now_ms expired_ids)) →
      (s.enter caller sec).Retryless := by
    intro caller sec hsec caller' r batch now_ms expired_ids hr
    rw [enter_lookup] at hr
    split at hr
    · obtain ⟨plan, hplan, rfl⟩ := Option.map_eq_some_iff.mp hr
      rintro rfl
      exact hsec batch now_ms expired_ids hplan
    · exact h caller' r batch now_ms expired_ids hr
  cases step_steps hs with
  | begin_ call hidle =>
    refine henter ?_
    intro batch now_ms expired_ids hplan
    obtain ⟨-, max_batch, rfl⟩ := AddressPool.begin_starts s.durable call hplan
    rw [hephemeral, AddressPool.begin_, AddressPool.retry_begin_ephemeral] at hplan
    contradiction
  | store ok hr hop =>
    intro caller r batch now_ms expired_ids hr'
    obtain ⟨past, hr₀⟩ := after_store_lookup hr hr'
    exact h caller ⟨r.plan, past⟩ batch now_ms expired_ids hr₀
  | resume hr hlen =>
    refine henter ?_
    intro batch now_ms expired_ids hplan
    rcases AddressPool.resume_parks s.durable hplan with ⟨_, _, _, _, he⟩ | ⟨_, _, _, hdurable, _⟩
    · contradiction
    · rw [hephemeral] at hdurable
      contradiction
  | release_deferred subject => exact h

/-- **A lease never leaves the quarantine of a pool without a store.** -/
theorem ephemeral_keeps {labels : List PoolLabel} {id : SessionId} (h : s.Coherent)
    (hretry : s.Retryless) (hephemeral : s.durable = false)
    (hid : id ∈ s.pool.inner.release_pending)
    (hrun : exec PoolSystem.step s labels = some (t, events)) :
    id ∈ t.pool.inner.release_pending := by
  have hend := exec_invariant (I := fun s : PoolSystem => s.Coherent ∧ s.Retryless ∧
      s.durable = false ∧ id ∈ s.pool.inner.release_pending) ?_ ⟨h, hretry, hephemeral, hid⟩ hrun
  · exact hend.2.2.2
  rintro s label s' events ⟨h, hretry, hephemeral, hid⟩ hs
  have hretry' := hretry.step hephemeral hs
  refine ⟨(step_refines h hs).1, hretry', (step_durable hs).trans hephemeral, ?_⟩
  -- quarantined before the step, so quarantined after it
  have hquarantined : ∀ {u : PoolSystem} {p : Place}, u.At id p →
      (id ∈ u.pool.inner.release_pending ↔ p.slot.quarantined.isSome) := by
    intro u p hp
    rw [← AList.lookup_isSome, ← hp.slot, Inner.slot]
  obtain ⟨p, hp⟩ := h.places id
  obtain ⟨p', hp', hc⟩ := (step_refines h hs).2 id p hp
  have hnot : ∀ {u : PoolSystem} {lease : ReleasePendingLease}, u.Retryless →
      ¬ u.At id (.retrying lease) := by
    intro u lease hu hat
    obtain ⟨caller, r, hr, hk⟩ := (hat.parks .retrying).mpr rfl
    cases hplan : r.plan with
    | retry batch now_ms expired_ids => exact hu caller r batch now_ms expired_ids hr hplan
    | swept _ _ =>
      rw [hplan] at hk
      contradiction
    | sweep batch now_ms =>
      rw [hplan, Plan.parked] at hk
      obtain ⟨e, -, he⟩ := Option.map_eq_some_iff.mp hk
      contradiction
    | _ =>
      rw [hplan, Plan.parked] at hk
      split at hk <;> cases hk
  rw [hquarantined hp] at hid
  rw [hquarantined hp']
  cases hc with
  | stay _ => exact hid
  | retry_parks lease _ => rfl
  | retry_frees lease _ | retry_fails lease _ _ _ => exact absurd hp (hnot hretry)
  | expire_quarantines | release_quarantines | defer_quarantines | sweep_quarantines => rfl
  | reserve_parks lease hfrom _ =>
    rcases hfrom with rfl | ⟨old, rfl⟩ <;> contradiction
  | release_takes lease hfrom | defer_restores lease hfrom =>
    rcases hfrom with rfl | rfl <;> contradiction
  | sweep_takes lease was_pending hfrom =>
    cases was_pending <;> (subst hfrom; contradiction)
  | _ => contradiction

/-! ## A whole sweep -/

/-- The remaining store operations of a call can all succeed. -/
theorem exists_stores (caller : ℕ) (m : ℕ) {r : Running} (hr : s.running.lookup caller = some r)
    (hm : r.outcomes.length + m = r.plan.store_ops.length) :
    ∃ t outcomes, exec PoolSystem.step s (List.replicate m (.store caller true)) = some (t, []) ∧
      t.running.lookup caller = some ⟨r.plan, outcomes⟩ ∧
      outcomes.length = r.plan.store_ops.length ∧
      ∀ other, other ≠ caller → t.running.lookup other = s.running.lookup other := by
  induction m generalizing s r with
  | zero => exact ⟨s, r.outcomes, rfl, hr, hm, fun _ _ => rfl⟩
  | succ m ih =>
    have hlt : r.outcomes.length < r.plan.store_ops.length := by omega
    have hop := List.getElem?_eq_getElem hlt
    have hs : s.step (.store caller true) =
        some (s.after_store caller r (r.plan.store_ops[r.outcomes.length]) true, []) := by
      have hsome : (s.run_store caller r (r.plan.store_ops[r.outcomes.length]) true).isSome := by
        rw [run_store]
        cases s.pool.store <;> rfl
      obtain ⟨s₁, hs₁⟩ := Option.isSome_iff_exists.mp hsome
      simp only [PoolSystem.step, hr, hop, hs₁, run_store_eq hs₁, Option.map_some]
    have hr' : (s.after_store caller r (r.plan.store_ops[r.outcomes.length]) true).running.lookup
        caller = some ⟨r.plan, r.outcomes ++ [true]⟩ := AList.lookup_insert _
    obtain ⟨t, outcomes, he, hcaller, hlen, hother⟩ := ih hr' (by
      change (r.outcomes ++ [true]).length + m = r.plan.store_ops.length
      rw [List.length_append, List.length_singleton]
      omega)
    refine ⟨t, outcomes, exec_cons_eq_some.mpr ⟨_, [], [], hs, he, rfl⟩, hcaller, hlen, ?_⟩
    intro other hne
    exact (hother other hne).trans (AList.lookup_insert_ne hne)

/-- The labels of a sweep by caller 0 whose deletes succeed. -/
def OfSweep (now_ms : ℕ) (label : PoolLabel) : Prop :=
  label = .begin_ 0 (.sweep now_ms) ∨ label = .store 0 true ∨ label = .resume 0

theorem running_enter_returns {caller : ℕ} {sec : Section} (hplan : sec.plan = none)
    (hother : ∀ other, other ≠ caller → s.running.lookup other = none) :
    (s.enter caller sec).running = ∅ := by
  refine AList.eq_empty ?_
  intro other
  rw [← AList.lookup_eq_none, enter_lookup, hplan]
  split
  · rfl
  · next hne => exact hother other hne

/-- **A sweep of an idle pool without a store runs to its end.** -/
theorem exists_sweep (hidle : s.running = ∅) (hephemeral : s.durable = false) (now_ms : ℕ) :
    ∃ labels t events, exec PoolSystem.step s labels = some (t, events) ∧ t.running = ∅ ∧
      (∀ label ∈ labels, OfSweep now_ms label) ∧
      ∀ due ≤ now_ms, labels.countP (PoolLabel.sweeps due) = 1 := by
  have hnone : ∀ caller, s.running.lookup caller = none := by
    intro caller
    rw [hidle]
    rfl
  -- the section that takes the expired leases out
  obtain ⟨batch, hplan⟩ : ∃ batch, (AddressPool.begin_ s.pool.config s.durable s.pool.inner
      (.sweep now_ms)).plan = some (.sweep batch now_ms) := ⟨_, rfl⟩
  have hs₁ : s.step (.begin_ 0 (.sweep now_ms)) = some (s.enter 0 (AddressPool.begin_ s.pool.config
      s.durable s.pool.inner (.sweep now_ms)), []) := by
    rw [PoolSystem.step, if_neg (AList.lookup_eq_none.mp (hnone 0))]
    rfl
  generalize AddressPool.begin_ s.pool.config s.durable s.pool.inner (.sweep now_ms) = sec
    at hplan hs₁
  have hr₁ : (s.enter 0 sec).running.lookup 0 = some ⟨.sweep batch now_ms, []⟩ := by
    rw [enter_lookup, if_pos rfl, hplan]
    rfl
  have hother₁ : ∀ other, other ≠ 0 → (s.enter 0 sec).running.lookup other = none := by
    intro other hne
    rw [enter_lookup, if_neg hne, hnone]
  -- its deletes
  obtain ⟨s₂, outcomes, hs₂, hr₂, hlen, hother₂⟩ := exists_stores 0
    (Plan.sweep batch now_ms).store_ops.length hr₁ (Nat.zero_add _)
  have hephemeral₂ : s₂.durable = false := by
    have hdurable : (s.enter 0 sec).durable = s.durable := step_durable hs₁
    exact exec_invariant (I := fun s : PoolSystem => s.durable = false)
      (fun s label s' o h hs => (step_durable hs).trans h) (hdurable.trans hephemeral) hs₂
  -- the section that settles them, and the one that would retry
  have hs₃ : s₂.step (.resume 0) = some (s₂.enter 0 (AddressPool.resume s₂.pool.config s₂.durable
      s₂.pool.inner outcomes (.sweep batch now_ms)), [.expired (batch.map (·.id))]) := by
    simp only [PoolSystem.step, hr₂, if_pos hlen]
    rfl
  have hr₃ : (s₂.enter 0 (AddressPool.resume s₂.pool.config s₂.durable s₂.pool.inner outcomes
      (.sweep batch now_ms))).running.lookup 0 = some ⟨.swept (batch.map (·.id)) now_ms, []⟩ := by
    rw [enter_lookup, if_pos rfl]
    rfl
  have hother₃ : ∀ other, other ≠ 0 → (s₂.enter 0 (AddressPool.resume s₂.pool.config s₂.durable
      s₂.pool.inner outcomes (.sweep batch now_ms))).running.lookup other = none := by
    intro other hne
    rw [enter_lookup, if_neg hne, hother₂ other hne, hother₁ other hne]
  have hephemeral₃ := (step_durable hs₃).trans hephemeral₂
  generalize s₂.enter 0 (AddressPool.resume s₂.pool.config s₂.durable s₂.pool.inner outcomes
    (.sweep batch now_ms)) = s₃ at hs₃ hr₃ hother₃ hephemeral₃
  have hs₄ : s₃.step (.resume 0) = some (s₃.enter 0 (AddressPool.retry_begin false s₃.pool.inner
      now_ms MAX_RETRY_BATCH (some (batch.map (·.id)))), (AddressPool.retry_begin false
        s₃.pool.inner now_ms MAX_RETRY_BATCH (some (batch.map (·.id)))).events) := by
    simp only [PoolSystem.step, hr₃, hephemeral₃]
    rfl
  have hend := running_enter_returns (AddressPool.retry_begin_ephemeral s₃.pool.inner now_ms
    MAX_RETRY_BATCH (some (batch.map (·.id)))) hother₃
  have hlast := exec_cons_eq_some.mpr ⟨_, _, _, hs₃, exec_singleton hs₄, rfl⟩
  have hrun := exec_cons_eq_some.mpr ⟨_, _, _, hs₁, exec_append hs₂ hlast, rfl⟩
  refine ⟨_, _, _, hrun, hend, ?_, ?_⟩
  · intro label hlabel
    rcases List.mem_cons.mp hlabel with rfl | hlabel
    · exact .inl rfl
    rcases List.mem_append.mp hlabel with hstore | hresume
    · exact .inr (.inl (List.eq_of_mem_replicate hstore))
    · right
      right
      simpa using hresume
  · intro due hdue
    simp [List.countP_append, List.countP_replicate, PoolLabel.sweeps, hdue]

/-- The same for any number of sweeps. -/
theorem exists_sweeps (hidle : s.running = ∅) (hephemeral : s.durable = false) (now_ms k : ℕ) :
    ∃ labels t events, exec PoolSystem.step s labels = some (t, events) ∧ t.running = ∅ ∧
      (∀ label ∈ labels, OfSweep now_ms label) ∧
      ∀ due ≤ now_ms, labels.countP (PoolLabel.sweeps due) = k := by
  induction k generalizing s with
  | zero => exact ⟨[], s, [], rfl, hidle, by simp, by simp⟩
  | succ k ih =>
    obtain ⟨labels, s₁, events, hs₁, hidle₁, hof, hcount⟩ := exists_sweep hidle hephemeral now_ms
    have hephemeral₁ : s₁.durable = false := exec_invariant (I := fun s : PoolSystem =>
      s.durable = false) (fun s label s' o h hs => (step_durable hs).trans h) hephemeral hs₁
    obtain ⟨labels', t, events', ht, htidle, hof', hcount'⟩ := ih hidle₁ hephemeral₁
    refine ⟨labels ++ labels', t, events ++ events', exec_append hs₁ ht, htidle, ?_, ?_⟩
    · intro label hlabel
      rcases List.mem_append.mp hlabel with h | h
      · exact hof label h
      · exact hof' label h
    · intro due hdue
      rw [List.countP_append, hcount due hdue, hcount' due hdue, Nat.add_comm]

/-- Sweeps whose deletes succeed disturb nothing. -/
theorem Clearing.undisturbed {labels : List PoolLabel} {now_ms : ℕ} (h : s.Clearing c due)
    (hof : ∀ label ∈ labels, OfSweep now_ms label) :
    Along PoolSystem.step Undisturbed s labels := by
  have hdel : ∀ {s : PoolSystem} {label : PoolLabel}, OfSweep now_ms label →
      s.deletes_succeed label := by
    rintro s label (rfl | rfl | rfl)
    · trivial
    · exact fun _ _ _ _ => rfl
    · trivial
  have hnot : ∀ {s : PoolSystem} {label : PoolLabel}, OfSweep now_ms label →
      ∀ subject, label = .release_deferred subject → s.quarantines_none label := by
    rintro s label (rfl | rfl | rfl) subject he <;> contradiction
  refine along_of_invariant (I := Clearing c due) ?_ ?_ h (along_of_forall s hof)
  · exact fun s label s' o h hlabel hs => h.step (hdel hlabel) (hnot hlabel) hs
  · intro s label h hlabel
    refine ⟨hdel hlabel, ?_⟩
    intro s' events hs id hid
    obtain ⟨lease, hl⟩ := AList.mem_iff_lookup.mp hid
    exact AList.mem_of_lookup ((h.shrinks (hnot hlabel) hs).leases id lease hl)

/-! ## The result -/

/-- Enough sweeps for everything that is quarantined now, while nothing disturbs
them: every lease is due, and there is a sweep for each full or partial batch. -/
structure Draining (s : PoolSystem) (due : ℕ) (labels : List PoolLabel) : Prop where
  all_due : ∀ id lease, s.pool.inner.release_pending.lookup id = some lease →
    lease.next_retry_ms ≤ due
  undisturbed : Along PoolSystem.step Undisturbed s labels
  sweeps : (s.pool.inner.release_pending.len + (MAX_RETRY_BATCH - 1)) / MAX_RETRY_BATCH ≤
    labels.countP (PoolLabel.sweeps due)

/-- **The quarantine drains exactly where there is a store.** From every idle state
that a started pool reaches, whatever other calls run beside the sweeps: once the
sweeps have returned the quarantine is empty and its addresses can be allocated
again, if the pool is durable or nothing was quarantined. A pool without a store
keeps every lease that is in its quarantine. -/
theorem quarantine_drains_iff {pool : AddressPool} {labels : List PoolLabel}
    (hstart : Started c pool)
    (hrun : exec PoolSystem.step (start pool) labels = some (s, events)) (hidle : s.running = ∅) :
    (∀ due later t events, s.Draining due later →
      exec PoolSystem.step s later = some (t, events) → t.running = ∅ → Drained s later t) ↔
    s.durable = true ∨ s.pool.inner.release_pending = ∅ := by
  have hsound := hstart.sound_run hrun
  have hclean : ∀ {caller r}, s.running.lookup caller = some r → Running.Clean r := by
    intro caller r hr
    rw [hidle] at hr
    contradiction
  constructor
  · intro hall
    by_contra hnot
    obtain ⟨hdurable, hquarantine⟩ := not_or.mp hnot
    have hephemeral : s.durable = false := by simpa using hdurable
    obtain ⟨id, hid⟩ : ∃ id, id ∈ s.pool.inner.release_pending := by
      by_contra hnone
      exact hquarantine (AList.eq_empty (not_exists.mp hnone))
    -- a time at which everything is due
    have hdue : ∀ id lease, s.pool.inner.release_pending.lookup id = some lease →
        lease.next_retry_ms ≤ s.pool.inner.release_pending.sum (fun _ l => l.next_retry_ms) :=
      fun id lease hl => AList.le_sum (fun _ l => l.next_retry_ms) hl
    generalize s.pool.inner.release_pending.sum (fun _ l => l.next_retry_ms) = due at hdue
    obtain ⟨later, t, events', ht, htidle, hof, hcount⟩ := exists_sweeps hidle hephemeral due
      ((s.pool.inner.release_pending.len + (MAX_RETRY_BATCH - 1)) / MAX_RETRY_BATCH)
    have hclearing : s.Clearing c due := ⟨hsound, hclean, hdue⟩
    have hdrained := hall due later t events' ⟨hdue, hclearing.undisturbed hof,
      Nat.le_of_eq (hcount due le_rfl).symm⟩ ht htidle
    have hretry : s.Retryless := by
      intro caller r batch now_ms expired_ids hr
      rw [hidle] at hr
      contradiction
    have hkept := ephemeral_keeps hsound.coherent hretry hephemeral hid ht
    rw [hdrained.empty] at hkept
    exact absurd hkept (AList.notMem_empty id)
  · rintro hcase due later t events' hdraining ht htidle
    have htsound : t.Sound c := exec_invariant (fun _ _ _ _ h hs => Sound.step h hs) hsound ht
    refine drained_of_empty hsound hidle ht htsound htidle ?_
    have hclearing : s.Clearing c due := ⟨hsound, hclean, hdraining.all_due⟩
    rcases hcase with hdurable | hempty
    · refine drains_of_durable hclearing hdurable hidle hdraining.undisturbed ?_ ht htidle
      have hsweeps := hdraining.sweeps
      rw [MAX_RETRY_BATCH] at hsweeps ⊢
      omega
    · -- nothing is quarantined, and nothing is added
      have hnone : ∀ id, id ∉ t.pool.inner.release_pending := by
        have hkeep := exec_along_invariant (C := Undisturbed)
          (I := fun s : PoolSystem => ∀ id, id ∉ s.pool.inner.release_pending)
          (fun s label s' o h hcond hs id hid => h id (hcond.2 s' o hs id hid))
          (fun id hid => AList.notMem_empty id (hempty ▸ hid)) hdraining.undisturbed ht
        exact hkeep
      exact AList.eq_empty hnone

/-! ### A session closed on a pool without a store -/

namespace Sample

/-- Session 1 is admitted and closed. -/
def closing : List PoolLabel :=
  whole (reserve ⟨1⟩) ++ whole (commit ⟨1⟩) ++ [.release_deferred ⟨1⟩]

/-- One sweep after the lease has become due; nothing has expired. -/
def one_sweep : List PoolLabel := [.begin_ 0 (.sweep 1000), .resume 0, .resume 0]

/-- The lease of session 1 in the quarantine. -/
def closed_lease : ReleasePendingLease := ⟨⟨⟨7⟩, first, 61000⟩, 0, 1000⟩

end Sample

open Sample in
/-- The quarantine of a pool without a store after the session is closed and after
the sweep that should drain it. -/
theorem ephemeral_quarantine_stays :
    AddressPoolConfig.new config = .ok config ∧ Started config (AddressPool.new config) ∧
    ∃ s events t events',
      exec PoolSystem.step (start (AddressPool.new config)) closing = some (s, events) ∧
      s.running = ∅ ∧ s.Draining 1000 one_sweep ∧
      exec PoolSystem.step s one_sweep = some (t, events') ∧ t.running = ∅ ∧
      t.pool.inner.release_pending.lookup ⟨1⟩ = some closed_lease ∧
      t.pool.inner.used_ipv4 first.ipv4 = true ∧ ¬ Drained s one_sweep t := by
  have hstart : Started config (AddressPool.new config) := .ephemeral
  refine ⟨by decide, hstart, ?_⟩
  have hruns : (exec PoolSystem.step (start (AddressPool.new config)) closing).any (fun r =>
      decide (r.1.running.entries = [] ∧
        r.1.pool.inner.release_pending.entries = [⟨⟨1⟩, closed_lease⟩]) &&
      (exec PoolSystem.step r.1 one_sweep).any (fun r' => decide (r'.1.running.entries = [] ∧
        r'.1.pool.inner.release_pending.lookup ⟨1⟩ = some closed_lease ∧
        r'.1.pool.inner.used_ipv4 first.ipv4 = true))) = true := by
    decide
  obtain ⟨⟨s, events⟩, hs, hstate⟩ := Option.any_eq_true _ _ |>.mp hruns
  obtain ⟨hstate, hsweep⟩ := Bool.and_eq_true_iff.mp hstate
  obtain ⟨⟨t, events'⟩, ht, hend⟩ := Option.any_eq_true _ _ |>.mp hsweep
  obtain ⟨hidle, hquarantine⟩ := of_decide_eq_true hstate
  obtain ⟨htidle, hkept, hused⟩ := of_decide_eq_true hend
  have hdue : ∀ id lease, s.pool.inner.release_pending.lookup id = some lease →
      lease.next_retry_ms ≤ 1000 := by
    intro id lease hl
    rw [← AList.mem_entries_iff, hquarantine, List.mem_singleton] at hl
    cases hl
    decide
  have hclearing : s.Clearing config 1000 := by
    refine ⟨hstart.sound_run hs, ?_, hdue⟩
    intro caller r hr
    rw [← AList.mem_entries_iff, hidle] at hr
    contradiction
  have hof : ∀ label ∈ one_sweep, OfSweep 1000 label := by simp [one_sweep, OfSweep]
  have hcount : (s.pool.inner.release_pending.len + (MAX_RETRY_BATCH - 1)) / MAX_RETRY_BATCH ≤
      one_sweep.countP (PoolLabel.sweeps 1000) := by
    rw [AList.len, hquarantine]
    decide
  refine ⟨s, events, t, events', hs, AList.ext hidle, ⟨hdue, hclearing.undisturbed hof, hcount⟩, ht,
    AList.ext htidle, hkept, hused, ?_⟩
  intro hdrained
  rw [hdrained.empty] at hkept
  contradiction

open Sample in
/-- The same session on a pool over an empty store. -/
theorem quarantine_drains_sample : ∃ s events,
    exec PoolSystem.step (start recovered) closing = some (s, events) ∧
      s.pool.inner.release_pending.len = 1 ∧
      ∀ due later t events, s.Draining due later →
        exec PoolSystem.step s later = some (t, events) → t.running = ∅ → Drained s later t := by
  have hnodup : (([] : List PersistedLease).map (·.session_id)).Nodup := by simp
  have hstart : Started config recovered := .recovered hnodup (by simp)
    recovered_eq
  have hstate : (exec PoolSystem.step (start recovered) closing).any (fun r =>
      decide (r.1.running.entries = [] ∧ r.1.durable = true ∧
        r.1.pool.inner.release_pending.len = 1)) = true := by
    decide
  obtain ⟨⟨s, events⟩, hs, hstate⟩ := Option.any_eq_true _ _ |>.mp hstate
  obtain ⟨hidle, hdurable, hlen⟩ := of_decide_eq_true hstate
  exact ⟨s, events, hs, hlen, (quarantine_drains_iff hstart hs (AList.ext hidle)).mpr (.inl hdurable)⟩

end PoolSystem

end StreamGuard.Gateway
