/-
The replay cache behind its persistence owner: `ReplayCache::consume_async`.

An admission redeems its ticket through the owner of the cache, and fails closed where the
owner refuses it, gives up on it or stops. The consume may run all the same after its
caller has left, and consumes come to the journal in the order of the channel, which need
not be that of the clock readings they carry.
-/
import StreamGuard.Gateway.PersistenceStop
import StreamGuard.Gateway.ReplayCache

set_option autoImplicit false

namespace StreamGuard.Gateway

open StreamGuard StreamGuard.Lib

/-- One `consume_async`, and what comes of its journal write. -/
structure TicketConsume where
  ticket_id : TicketId
  ticket_expiry_unix_seconds : ℕ
  now_unix_seconds : ℕ
  write : AtomicWrite

namespace TicketConsume

/-- The closure that `consume_async` hands to the owner. -/
def work (call : TicketConsume) : Work (ReplayCache × JournalFile) (Except ReplayCacheError Unit) :=
  fun s =>
    let r := s.1.consume s.2 call.ticket_id call.ticket_expiry_unix_seconds call.now_unix_seconds
      call.write
    ((r.cache, r.file), some r.result)

/-- What `consume_async` makes of the answer of the owner. -/
def answer : Except PersistenceError (Except ReplayCacheError Unit) → Except ReplayCacheError Unit
  | .ok result => result
  | .error _ => .error .Unavailable

/-- A consume comes from a verified ticket, which is not expired at the clock reading. -/
def Verified (expiry : TicketId → ℕ) (call : TicketConsume) : Prop :=
  call.ticket_expiry_unix_seconds = expiry call.ticket_id ∧
    call.now_unix_seconds < expiry call.ticket_id ∧ expiry call.ticket_id ≤ u64Max

/-- The time until which a redeemed ticket is retained. -/
def until_seconds (expiry : TicketId → ℕ) (ticket_id : TicketId) : ℕ :=
  saturatingAdd (expiry ticket_id) REPLAY_EXPIRY_SKEW_SECONDS

/-! ## Consumes in a row -/

variable {expiry : TicketId → ℕ} {s : ReplayCache × JournalFile} {call call' : TicketConsume}

/-- A consume leaves an entry alone that is retained at its clock reading. -/
theorem work_keeps {ticket_id : TicketId} {retained_until : ℕ}
    (h : s.1.entries.lookup ticket_id = some retained_until)
    (hlive : call.now_unix_seconds < retained_until) :
    (call.work s).1.1.entries.lookup ticket_id = some retained_until := by
  have hkept : (s.1.unexpired call.now_unix_seconds).lookup ticket_id = some retained_until :=
    AList.lookup_retain_eq_some.mpr ⟨h, decide_eq_true hlive⟩
  rw [work]
  dsimp only
  rcases s.1.consume_cases s.2 call.ticket_id call.ticket_expiry_unix_seconds call.now_unix_seconds
    call.write with ⟨-, hfails⟩ | ⟨-, hredeems⟩
  · rw [hfails.entries]
    exact hkept
  · rw [hredeems.entries, ReplayCache.redeemed_entries]
    refine AList.lookup_insert_new ?_ hkept
    exact AList.lookup_eq_none.mpr hredeems.fresh

/-- A consume that redeems leaves its entry behind. -/
theorem work_redeems (hverified : call.Verified expiry) (h : (call.work s).2 = some (.ok ())) :
    (call.work s).1.1.entries.lookup call.ticket_id =
      some (until_seconds expiry call.ticket_id) := by
  rw [work] at h ⊢
  dsimp only at h ⊢
  rcases s.1.consume_cases s.2 call.ticket_id call.ticket_expiry_unix_seconds call.now_unix_seconds
    call.write with ⟨⟨error, hresult⟩, -⟩ | ⟨-, hredeems⟩
  · rw [hresult] at h
    simp at h
  · rw [hredeems.entries, ReplayCache.redeemed_entries, AList.lookup_insert, hverified.1]
    rfl

/-- A ticket whose entry is retained is a replay. -/
theorem work_replay {retained_until : ℕ}
    (h : s.1.entries.lookup call.ticket_id = some retained_until)
    (hlive : call.now_unix_seconds < retained_until) : (call.work s).2 = some (.error .Replay) := by
  have hmem : call.ticket_id ∈ (s.1.prune call.now_unix_seconds).entries :=
    AList.mem_of_lookup (AList.lookup_retain_eq_some.mpr ⟨h, decide_eq_true hlive⟩)
  rw [work, ReplayCache.consume]
  dsimp only
  rw [if_pos hmem]

/-- A clock reading that is not more than the skew ahead of one at which the ticket was
valid does not outlive its entry. -/
theorem skew_covers (hcall : call.Verified expiry) (hcall' : call'.Verified expiry)
    (hclock : call'.now_unix_seconds ≤ call.now_unix_seconds + REPLAY_EXPIRY_SKEW_SECONDS) :
    call'.now_unix_seconds < until_seconds expiry call.ticket_id := by
  obtain ⟨-, hvalid, -⟩ := hcall
  obtain ⟨-, hvalid', hword'⟩ := hcall'
  rw [until_seconds, saturatingAdd]
  exact lt_min (by omega) (lt_of_lt_of_le hvalid' hword')

end TicketConsume

open TicketConsume

/-- The consumes by the numbers of their calls. -/
def consume_works (calls : List (ℕ × TicketConsume)) :
    List (ℕ × Work (ReplayCache × JournalFile) (Except ReplayCacheError Unit)) :=
  calls.map fun c => (c.1, c.2.work)

section Row

variable {expiry : TicketId → ℕ} {s : ReplayCache × JournalFile} {calls : List (ℕ × TicketConsume)}

/-- After a row of consumes a redeemed ticket has its entry, or a clock reading outlived it. -/
theorem redeemed_kept (hverified : ∀ c ∈ calls, c.2.Verified expiry) {c : ℕ × TicketConsume}
    (hnames : (calls.map Prod.fst).Nodup) (hc : c ∈ calls)
    (hok : (c.1, some (.ok ())) ∈ (serve s (consume_works calls)).2)
    (hlive : ∀ c' ∈ calls, c'.2.now_unix_seconds < until_seconds expiry c.2.ticket_id) :
    (serve s (consume_works calls)).1.1.entries.lookup c.2.ticket_id =
      some (until_seconds expiry c.2.ticket_id) := by
  induction calls using List.reverseRecOn with
  | nil => simp at hc
  | append_singleton calls last ih =>
    obtain ⟨k, call⟩ := last
    have hsplit : consume_works (calls ++ [(k, call)]) =
        consume_works calls ++ [(k, call.work)] := by
      rw [consume_works, List.map_append]
      rfl
    rw [hsplit, serve_concat] at hok ⊢
    rw [List.map_append, List.nodup_append] at hnames
    obtain ⟨hnames, -, hapart⟩ := hnames
    have hlater : ∀ {id r}, (id, r) ∈ (serve s (consume_works calls)).2 → id ≠ k := by
      intro id r hmem
      have hid : id ∈ (consume_works calls).map Prod.fst := by
        rw [← serve_names s (consume_works calls)]
        exact List.mem_map.mpr ⟨_, hmem, rfl⟩
      rw [consume_works, List.map_map] at hid
      exact hapart id hid k (by simp)
    -- redeemed before the last consume, or by it
    rcases List.mem_append.mp hok with hok | hok
    · have hc : c ∈ calls := by
        rcases List.mem_append.mp hc with hc | hc
        · exact hc
        · rw [List.mem_singleton.mp hc] at hok
          exact absurd rfl (hlater hok)
      refine work_keeps (ih ?_ hnames hc hok ?_) (hlive (k, call) (by simp))
      · exact fun c' hc' => hverified c' (List.mem_append_left _ hc')
      · exact fun c' hc' => hlive c' (List.mem_append_left _ hc')
    · obtain ⟨hk, hresult⟩ := Prod.mk.inj (List.mem_singleton.mp hok)
      have hcall : c = (k, call) := by
        rcases List.mem_append.mp hc with hc | hc
        · exact absurd (List.mem_map.mpr ⟨c, hc, hk⟩) fun hmem => hapart k hmem k (by simp) rfl
        · exact List.mem_singleton.mp hc
      subst hcall
      exact work_redeems (hverified (k, call) (by simp)) hresult.symm

/-- The clock reading of a consume is not more than the skew ahead of a later one. -/
def InOrder (c c' : ℕ × TicketConsume) : Prop :=
  c.2.now_unix_seconds ≤ c'.2.now_unix_seconds + REPLAY_EXPIRY_SKEW_SECONDS

/-- Once a ticket is redeemed, every later consume of it is a replay. -/
def Replays (calls : ℕ → Option TicketConsume) (a b : ℕ × Option (Except ReplayCacheError Unit)) :
    Prop :=
  ∀ ca cb, calls a.1 = some ca → calls b.1 = some cb → ca.ticket_id = cb.ticket_id →
    a.2 = some (.ok ()) → b.2 = some (.error .Replay)

theorem serve_replays (s : ReplayCache × JournalFile) {named : ℕ → Option TicketConsume}
    (hnamed : ∀ c ∈ calls, named c.1 = some c.2)
    (hverified : ∀ c ∈ calls, c.2.Verified expiry) (hnames : (calls.map Prod.fst).Nodup)
    (hclock : calls.Pairwise InOrder) :
    (serve s (consume_works calls)).2.Pairwise (Replays named) := by
  induction calls using List.reverseRecOn with
  | nil => exact List.Pairwise.nil
  | append_singleton calls last ih =>
    obtain ⟨k, call⟩ := last
    have hsplit : consume_works (calls ++ [(k, call)]) =
        consume_works calls ++ [(k, call.work)] := by
      rw [consume_works, List.map_append]
      rfl
    have hbefore : ∀ c ∈ calls, c ∈ calls ++ [(k, call)] := fun c hc => List.mem_append_left _ hc
    have hlast : (k, call) ∈ calls ++ [(k, call)] :=
      List.mem_append_right _ (List.mem_singleton_self _)
    rw [List.map_append, List.nodup_append] at hnames
    obtain ⟨hclock, -, hskew⟩ := List.pairwise_append.mp hclock
    rw [hsplit, serve_concat]
    refine List.pairwise_append.mpr ⟨ih ?_ ?_ hnames.1 hclock, List.pairwise_singleton _ _, ?_⟩
    · exact fun c hc => hnamed c (hbefore c hc)
    · exact fun c hc => hverified c (hbefore c hc)
    rintro ⟨i, r⟩ hr ⟨k', r'⟩ hr' ci ck hci hck hticket hok
    obtain ⟨rfl, rfl⟩ := Prod.mk.inj (List.mem_singleton.mp hr')
    obtain rfl : r = some (.ok ()) := hok
    rw [hnamed (k', call) hlast] at hck
    obtain rfl := Option.some.inj hck
    have hi : i ∈ (consume_works calls).map Prod.fst := by
      rw [← serve_names s (consume_works calls)]
      exact List.mem_map.mpr ⟨_, hr, rfl⟩
    rw [consume_works, List.map_map] at hi
    obtain ⟨c, hc, rfl⟩ := List.mem_map.mp hi
    have hsame : named c.1 = some ci := hci
    rw [hnamed c (hbefore c hc)] at hsame
    obtain rfl := Option.some.inj hsame
    -- no clock reading so far outlives the entry, since this consume comes with a valid ticket
    have hvalid := hverified (k', call) hlast
    have hentry := redeemed_kept (fun c' hc' => hverified c' (hbefore c' hc')) hnames.1 hc hr
      (fun c' hc' => by
        rw [hticket]
        exact skew_covers hvalid (hverified c' (hbefore c' hc'))
          (hskew c' hc' (k', call) (List.mem_singleton_self _)))
    rw [hticket] at hentry
    exact work_replay hentry (skew_covers hvalid hvalid (Nat.le_add_right _ _))

end Row

/-! ## Runs of the owner -/

namespace ReplayOwner

variable {expiry : TicketId → ℕ} {calls : List TicketConsume}
  {events : List (OwnerEvent (ReplayCache × JournalFile) (Except ReplayCacheError Unit))}

/-- The consumes behind works of the channel. -/
def named (calls : List TicketConsume)
    (works : List (ℕ × Work (ReplayCache × JournalFile) (Except ReplayCacheError Unit))) :
    List (ℕ × TicketConsume) :=
  works.filterMap fun w => (calls[w.1]?).map fun call => (w.1, call)

theorem named_cons {id : ℕ} {call : TicketConsume}
    {works : List (ℕ × Work (ReplayCache × JournalFile) (Except ReplayCacheError Unit))}
    (work : Work (ReplayCache × JournalFile) (Except ReplayCacheError Unit))
    (h : calls[id]? = some call) :
    named calls ((id, work) :: works) = (id, call) :: named calls works := by
  rw [named, List.filterMap_cons, h]
  rfl

theorem named_works
    {works : List (ℕ × Work (ReplayCache × JournalFile) (Except ReplayCacheError Unit))}
    (h : ∀ w ∈ works, (calls.map TicketConsume.work)[w.1]? = some w.2) :
    consume_works (named calls works) = works ∧
      (named calls works).map Prod.fst = works.map Prod.fst ∧
      ∀ c ∈ named calls works, calls[c.1]? = some c.2 := by
  induction works with
  | nil => exact ⟨rfl, rfl, fun c hc => absurd hc List.not_mem_nil⟩
  | cons w works ih =>
    obtain ⟨id, work⟩ := w
    obtain ⟨hw, hworks⟩ := List.forall_mem_cons.mp h
    rw [List.getElem?_map] at hw
    obtain ⟨call, hcall, rfl⟩ := Option.map_eq_some_iff.mp hw
    obtain ⟨hsame, hnames, hall⟩ := ih hworks
    have hcall : calls[id]? = some call := hcall
    rw [named_cons _ hcall]
    refine ⟨?_, ?_, ?_⟩
    · rw [consume_works, List.map_cons, ← consume_works, hsame]
    · rw [List.map_cons, List.map_cons, hnames]
    · exact List.forall_mem_cons.mpr ⟨hcall, hall⟩

theorem mem_named {c : ℕ × TicketConsume}
    {works : List (ℕ × Work (ReplayCache × JournalFile) (Except ReplayCacheError Unit))}
    (h : c ∈ named calls works) : c.2 ∈ calls := by
  obtain ⟨w, -, hw⟩ := List.mem_filterMap.mp h
  obtain ⟨call, hcall, rfl⟩ := Option.map_eq_some_iff.mp hw
  exact List.mem_of_getElem? hcall

variable {c : ReplayCache} {file : JournalFile} {config : PersistenceConfig}
  {labels : List (OwnerLabel (ReplayCache × JournalFile) (Except ReplayCacheError Unit))}
  {s : PersistenceOwner (ReplayCache × JournalFile) (Except ReplayCacheError Unit)}

open PersistenceOwner

/-- **A ticket is admitted at most once, whatever becomes of its callers.** Consumes of
verified tickets go through the owner of the cache, in any interleaving with refusals,
timeouts, dropped callers, failed journal writes and `stop`, and they come to the channel in
an order that sets no clock reading back by more than the expiry skew. Then a consume that
ran and redeemed, also one whose caller was told that the store is unavailable, makes every
later one of that ticket a replay, and of all callers one at most is told that the ticket
is good. -/
theorem async_ticket_admitted_once
    (hcalls : executed labels = calls.map TicketConsume.work)
    (hverified : ∀ call ∈ calls, call.Verified expiry)
    (hrun : exec PersistenceOwner.step (start config (c, file)) labels = some (s, events))
    (hclock : (named calls (accepted events)).Pairwise InOrder) :
    (ran events).Pairwise (Replays (calls[·]?)) ∧
      ∀ i j ri rj ci cj, (i, ri) ∈ returned events → (j, rj) ∈ returned events →
        calls[i]? = some ci → calls[j]? = some cj → ci.ticket_id = cj.ticket_id →
        TicketConsume.answer ri = .ok () → TicketConsume.answer rj = .ok () → i = j := by
  have h := run_serial hrun
  have hserve := h.orderly.take_ran.1
  have honce := h.tracked.accepted_once
  have hworks : ∀ w ∈ (accepted events).take (ran events).length,
      (calls.map TicketConsume.work)[w.1]? = some w.2 := by
    rintro ⟨id, work⟩ hw
    rw [← hcalls]
    exact accepted_executed hrun (List.mem_of_mem_take hw)
  obtain ⟨hsame, hnames, hcall⟩ := named_works hworks
  have hprefix : (named calls ((accepted events).take (ran events).length)).Sublist
      (named calls (accepted events)) := (List.take_sublist _ _).filterMap _
  have hreplays : (ran events).Pairwise (Replays (calls[·]?)) := by
    have hall := serve_replays (c, file) hcall
      (fun d hd => hverified d.2 (mem_named hd))
      (by rw [hnames]; exact honce.sublist ((List.take_sublist _ _).map _))
      (hclock.sublist hprefix)
    rw [hsame, hserve] at hall
    exact hall
  refine ⟨hreplays, ?_⟩
  intro i j ri rj ci cj hri hrj hci hcj hticket hi hj
  have hok : ∀ {k r}, (k, r) ∈ returned events → TicketConsume.answer r = .ok () →
      (k, some (.ok ())) ∈ ran events := by
    intro k r hr hanswer
    cases r with
    | error e => contradiction
    | ok result =>
      rw [TicketConsume.answer] at hanswer
      rw [hanswer] at hr
      exact h.returned_ok hr
  by_contra hne
  -- the later of the two is a replay, not a redemption
  have hapart : ∀ a ∈ ran events, ∀ b ∈ ran events, a ≠ b →
      (Replays (calls[·]?) a b ∨ Replays (calls[·]?) b a) := by
    intro a ha b hb hab
    have hsymm : Std.Symm fun a b => Replays (calls[·]?) a b ∨ Replays (calls[·]?) b a :=
      ⟨fun _ _ h => h.symm⟩
    have heither : (ran events).Pairwise fun a b =>
        Replays (calls[·]?) a b ∨ Replays (calls[·]?) b a := hreplays.imp .inl
    exact heither.forall ha hb hab
  rcases hapart _ (hok hri hi) _ (hok hrj hj) (fun h => hne (Prod.mk.inj h).1) with h | h
  · have hlater := h ci cj hci hcj hticket rfl
    simp at hlater
  · have hlater := h cj ci hcj hci hticket.symm rfl
    simp at hlater

/-- Two consumes of one ticket. The clock reading of the second is behind that of the first,
whose caller gives up before it runs. -/
def timeout_consumes : List TicketConsume :=
  [⟨⟨7⟩, 200, 101, .written⟩, ⟨⟨7⟩, 200, 100, .written⟩]

def timeout_labels :
    List (OwnerLabel (ReplayCache × JournalFile) (Except ReplayCacheError Unit)) :=
  [.execute (TicketConsume.work ⟨⟨7⟩, 200, 101, .written⟩), .try_send 0, .submit 0, .timeout 0,
    .execute (TicketConsume.work ⟨⟨7⟩, 200, 100, .written⟩), .try_send 1, .submit 1, .recv, .finish,
    .recv, .finish, .answer 1]

/-- The one that nobody waited for redeemed the ticket, and the other is a replay. -/
theorem async_ticket_admitted_once_timeout : ∃ s events,
    exec PersistenceOwner.step (start .default_config (⟨8, ∅, 0, 0, 0, some "g"⟩, .missing))
        timeout_labels = some (s, events) ∧
      (ran events).Pairwise (Replays (timeout_consumes[·]?)) ∧
      (0, some (.ok ())) ∈ ran events := by
  obtain ⟨s, events, hrun, hnamed, hfirst⟩ : ∃ s events,
      exec PersistenceOwner.step (start .default_config (⟨8, ∅, 0, 0, 0, some "g"⟩, .missing))
          timeout_labels = some (s, events) ∧
        named timeout_consumes (accepted events) =
          [(0, ⟨⟨7⟩, 200, 101, .written⟩), (1, ⟨⟨7⟩, 200, 100, .written⟩)] ∧
        (0, some (.ok ())) ∈ ran events :=
    ⟨_, _, rfl, rfl, .head _⟩
  have hverified : ∀ call ∈ timeout_consumes, call.Verified fun _ => 200 := by
    intro call hcall
    simp only [timeout_consumes, List.mem_cons, List.not_mem_nil, or_false] at hcall
    rcases hcall with rfl | rfl
    · exact ⟨rfl, by decide, by decide⟩
    · exact ⟨rfl, by decide, by decide⟩
  have hclock : (named timeout_consumes (accepted events)).Pairwise InOrder := by
    rw [hnamed]
    simp [InOrder, REPLAY_EXPIRY_SKEW_SECONDS]
  exact ⟨s, events, hrun, (async_ticket_admitted_once rfl hverified hrun hclock).1, hfirst⟩

end ReplayOwner

end StreamGuard.Gateway
