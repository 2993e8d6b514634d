/-
The state diagram of a path's MTU, `sg-transport/src/mtu.rs`.

The documentation of `PathMtuState` draws the edges a path may take, and the gate
has five calls that move it. Four of them look at the state they find. `discover`
does not: it is described as the edge from `Unknown`, and it makes any path
available, with any limit. `documented_iff` settles every call in every state; the
rest carries it over runs, where a limit that no edge raises is never raised
while the path stays sendable.
-/
import StreamGuard.Transport.GateRuns

set_option autoImplicit false

namespace StreamGuard.Mtu

open StreamGuard StreamGuard.Lib

/-! ## The diagram -/

/-- The documented transitions of a path. -/
inductive PathMtuState.Edge : PathMtuState → PathMtuState → Prop where
  | discovered (mtu : DatagramMtu) : Edge .Unknown (.Available mtu mtu.effective_payload)
  | reduced {state : PathMtuState} {previous mtu : DatagramMtu}
      (hprevious : state.datagram_mtu = some previous) (hless : mtu.get < previous.get) :
      Edge state (.Reduced mtu mtu.effective_payload previous)
  | lost {state : PathMtuState} (hsendable : state.send_denied = false) : Edge state .BlackHole
  | recovered (mtu : DatagramMtu) : Edge .BlackHole (.Available mtu mtu.effective_payload)

inductive MtuCall where
  | discover (mtu : DatagramMtu)
  | reduce (new_mtu : DatagramMtu)
  | blackhole
  | recover (mtu : DatagramMtu)
  | sync_from_transport (transport_mtu : DatagramMtu)

namespace MtuAdmission

def call (g : MtuAdmission) : MtuCall → MtuAdmission
  | .discover mtu => g.discover mtu
  | .reduce new_mtu => g.reduce new_mtu
  | .blackhole => g.blackhole
  | .recover mtu => g.recover mtu
  | .sync_from_transport transport_mtu => g.sync_from_transport transport_mtu

/-- A call, and the state the path is in after it. -/
def transition (g : MtuAdmission) (c : MtuCall) : Option (MtuAdmission × List PathMtuState) :=
  some (g.call c, [(g.call c).state])

/-- A call follows an edge if it changes the state, and only `recover` leaves the black hole. -/
def Documented (g : MtuAdmission) (c : MtuCall) : Prop :=
  ((g.call c).state = g.state ∨ g.state.Edge (g.call c).state) ∧
    (g.state = .BlackHole → (g.call c).state.send_denied = false → ∃ mtu, c = .recover mtu)

/-- A discovery finds a path that is unknown, or one that already has this limit. -/
def FirstDiscovery (g : MtuAdmission) (c : MtuCall) : Prop :=
  ∀ mtu, c = .discover mtu → g.state = .Unknown ∨ g.state = .Available mtu mtu.effective_payload

/-- In the run, the limit does not grow between two moments with only sendable states from
the one to the other. -/
def NeverGrows (g : MtuAdmission) (calls : List MtuCall) : Prop :=
  ∀ before between after, calls = before ++ (between ++ after) →
    ∀ g₁ g₂ states states', exec transition g before = some (g₁, states) →
      exec transition g₁ between = some (g₂, states') →
      (∀ state ∈ g₁.state :: states', state.send_denied = false) →
      ∀ mtu mtu', g₁.state.datagram_mtu = some mtu → g₂.state.datagram_mtu = some mtu' →
        mtu'.get ≤ mtu.get

end MtuAdmission

/-! ## One call -/

section Calls

variable {state : PathMtuState} {g : MtuAdmission} {mtu previous : DatagramMtu} {c : MtuCall}

theorem PathMtuState.send_denied_iff : state.send_denied = true ↔ state.datagram_mtu = none := by
  cases state with
  | Unknown => simp [send_denied, PathMtuState.datagram_mtu]
  | BlackHole => simp [send_denied, PathMtuState.datagram_mtu]
  | Available datagram_mtu effective => simp [send_denied, PathMtuState.datagram_mtu]
  | Reduced datagram_mtu effective previous => simp [send_denied, PathMtuState.datagram_mtu]

/-- `reduce` follows its edge or does nothing. -/
theorem PathMtuState.reduce_edge (state : PathMtuState) (mtu : DatagramMtu) :
    (state.reduce mtu).1 = state ∨ state.Edge (state.reduce mtu).1 := by
  have hfrom : ∀ previous, state.datagram_mtu = some previous →
      (state.reduce_from previous mtu).1 = state ∨
        state.Edge (state.reduce_from previous mtu).1 := by
    intro previous hprevious
    unfold reduce_from
    split
    · exact .inl rfl
    · next hless => exact .inr (.reduced hprevious (Nat.lt_of_not_le hless))
  cases state with
  | Unknown => exact .inl rfl
  | BlackHole => exact .inl rfl
  | Available datagram_mtu effective => exact hfrom datagram_mtu rfl
  | Reduced datagram_mtu effective previous => exact hfrom datagram_mtu rfl

theorem PathMtuState.blackhole_edge (state : PathMtuState) :
    state.blackhole.1 = state ∨ state.Edge state.blackhole.1 := by
  unfold blackhole
  split
  · exact .inl rfl
  · next hsendable => exact .inr (.lost (by simpa using hsendable))

theorem PathMtuState.recover_edge (state : PathMtuState) (mtu : DatagramMtu) :
    (state.recover mtu).1 = state ∨ state.Edge (state.recover mtu).1 := by
  unfold recover
  split
  · exact .inl rfl
  · next hblackhole =>
    rw [not_not.mp hblackhole]
    exact .inr (.recovered mtu)

/-- A sync discovers an unknown path and reduces another. -/
theorem MtuAdmission.sync_edge (g : MtuAdmission) (mtu : DatagramMtu) :
    (g.sync_from_transport mtu).state = g.state ∨
      g.state.Edge (g.sync_from_transport mtu).state := by
  have hreduce : (g.reduce mtu).state = g.state ∨ g.state.Edge (g.reduce mtu).state :=
    g.state.reduce_edge mtu
  unfold sync_from_transport
  cases hstate : g.state with
  | Unknown => exact .inr (.discovered mtu)
  | BlackHole => exact .inl hstate
  | Available datagram_mtu effective =>
    rw [hstate] at hreduce
    dsimp only
    split
    · exact hreduce
    · exact .inl hstate
  | Reduced datagram_mtu effective previous =>
    rw [hstate] at hreduce
    dsimp only
    split
    · exact hreduce
    · exact .inl hstate

/-- The calls other than `recover` and `discover` leave a black hole alone. -/
theorem MtuAdmission.call_blackhole (hstate : g.state = .BlackHole)
    (hrecover : ∀ mtu, c ≠ .recover mtu) (hdiscover : ∀ mtu, c ≠ .discover mtu) :
    (g.call c).state = .BlackHole := by
  cases c with
  | discover mtu => exact absurd rfl (hdiscover mtu)
  | reduce mtu => simp [call, reduce, enter, hstate, PathMtuState.reduce]
  | blackhole =>
    simp [call, blackhole, enter, hstate, PathMtuState.blackhole, PathMtuState.send_denied]
  | recover mtu => exact absurd rfl (hrecover mtu)
  | sync_from_transport mtu => simp [call, sync_from_transport, hstate]

/-- Every other call follows an edge or does nothing. -/
theorem MtuAdmission.call_edge (hdiscover : ∀ mtu, c ≠ .discover mtu) :
    (g.call c).state = g.state ∨ g.state.Edge (g.call c).state := by
  cases c with
  | discover mtu => exact absurd rfl (hdiscover mtu)
  | reduce mtu => exact g.state.reduce_edge mtu
  | blackhole => exact g.state.blackhole_edge
  | recover mtu => exact g.state.recover_edge mtu
  | sync_from_transport mtu => exact g.sync_edge mtu

/-- **What a call keeps of the diagram**: everything, unless it discovers a path that is
already known. -/
theorem MtuAdmission.documented_iff : g.Documented c ↔ g.FirstDiscovery c := by
  by_cases hdiscover : ∀ mtu, c ≠ .discover mtu
  · refine iff_of_true ⟨call_edge hdiscover, ?_⟩ ?_
    · intro hstate hsendable
      by_contra hrecover
      rw [not_exists] at hrecover
      rw [call_blackhole hstate hrecover hdiscover] at hsendable
      simp [PathMtuState.send_denied] at hsendable
    · intro mtu hmtu
      exact absurd hmtu (hdiscover mtu)
  · rw [not_forall] at hdiscover
    obtain ⟨mtu, hmtu⟩ := hdiscover
    rw [not_not] at hmtu
    subst hmtu
    have hafter : (g.call (.discover mtu)).state = .Available mtu mtu.effective_payload := rfl
    constructor
    · rintro ⟨hedge, hrecover⟩ other hother
      obtain rfl := MtuCall.discover.inj hother
      rw [hafter] at hedge hrecover
      rcases hedge with hsame | hedge
      · exact .inr hsame.symm
      · generalize hstate : g.state = before at hedge hrecover
        cases hedge with
        | discovered => exact .inl rfl
        | recovered =>
          -- the edge is there, but it is not this call's
          obtain ⟨other, hother⟩ := hrecover rfl rfl
          contradiction
    · intro hfirst
      rcases hfirst mtu rfl with hstate | hstate
      · refine ⟨.inr ?_, ?_⟩
        · rw [hstate, hafter]
          exact .discovered mtu
        · simp [hstate]
      · exact ⟨.inl (hafter.trans hstate.symm), by simp [hstate]⟩

/-- On an edge between sendable states the limit does not grow. -/
theorem PathMtuState.Edge.le {state' : PathMtuState} (h : state.Edge state')
    (hstate : state.datagram_mtu = some previous) (hstate' : state'.datagram_mtu = some mtu) :
    mtu.get ≤ previous.get := by
  cases h with
  | discovered => simp [PathMtuState.datagram_mtu] at hstate
  | recovered => simp [PathMtuState.datagram_mtu] at hstate
  | lost => simp [PathMtuState.datagram_mtu] at hstate'
  | reduced hprevious hless =>
    rw [hprevious, Option.some.injEq] at hstate
    rw [PathMtuState.datagram_mtu, Option.some.injEq] at hstate'
    rw [← hstate, ← hstate']
    exact Nat.le_of_lt hless

end Calls

/-! ## Runs -/

section Runs

variable {g g' : MtuAdmission} {calls : List MtuCall} {states : List PathMtuState}
  {mtu mtu' : DatagramMtu}

/-- A run of documented calls through sendable states only lowers the limit. -/
theorem MtuAdmission.exec_le (hdocumented : Along transition Documented g calls)
    (hrun : exec transition g calls = some (g', states))
    (hsendable : ∀ state ∈ states, state.send_denied = false)
    (hbefore : g.state.datagram_mtu = some mtu) (hafter : g'.state.datagram_mtu = some mtu') :
    mtu'.get ≤ mtu.get := by
  induction calls generalizing g mtu states with
  | nil =>
    obtain ⟨rfl, -⟩ := step_inj hrun
    rw [hbefore, Option.some.injEq] at hafter
    rw [hafter]
  | cons c calls ih =>
    obtain ⟨g₁, o, o', hs, he, rfl⟩ := exec_cons_eq_some.mp hrun
    obtain ⟨⟨hedge, -⟩, hrest⟩ := (along_cons hs).mp hdocumented
    obtain ⟨rfl, rfl⟩ := step_inj hs
    have hnow : (g.call c).state.send_denied = false :=
      hsendable _ (List.mem_append_left _ List.mem_cons_self)
    obtain ⟨next, hnext⟩ : ∃ next, (g.call c).state.datagram_mtu = some next := by
      apply Option.ne_none_iff_exists'.mp
      intro hnone
      rw [PathMtuState.send_denied_iff.mpr hnone] at hnow
      contradiction
    have hstep : next.get ≤ mtu.get := by
      rcases hedge with hsame | hedge
      · rw [hsame, hbefore, Option.some.injEq] at hnext
        rw [hnext]
      · exact hedge.le hbefore hnext
    have hlater := ih hrest he (fun state hstate =>
      hsendable state (List.mem_append_right _ hstate)) hnext
    omega

/-- **The diagram over runs.** In a run every change of state follows a documented edge, only
`recover` leaves the black hole, and the limit never grows while the path stays sendable,
exactly when every discovery is a first one. -/
theorem MtuAdmission.path_states_iff (g : MtuAdmission) (calls : List MtuCall) :
    (Along transition Documented g calls ∧ g.NeverGrows calls) ↔
      Along transition FirstDiscovery g calls := by
  have hsame : Along transition Documented g calls ↔ Along transition FirstDiscovery g calls :=
    along_iff_along (I := fun _ => True) (fun _ _ _ _ _ _ => trivial)
      (fun _ _ _ => documented_iff) trivial calls
  rw [← hsame, and_iff_left_iff_imp]
  rintro hdocumented before between after rfl g₁ g₂ states states' hbefore hbetween hsendable
    mtu mtu' hmtu hmtu'
  obtain ⟨-, hlater⟩ := (along_append hbefore).mp hdocumented
  exact exec_le ((along_append hbetween).mp hlater).1 hbetween
    (fun state hstate => hsendable state (List.mem_cons_of_mem _ hstate)) hmtu hmtu'

def narrow_mtu : DatagramMtu := ⟨1352, header_fits_limit, limit_fits_datagram⟩

def wide_mtu : DatagramMtu := ⟨1500, by decide, by decide⟩

/-- A second discovery raises the limit of a path that is sendable all the while, and it
brings back a path from the black hole. -/
theorem MtuAdmission.rediscovery_breaks_diagram :
    ¬ Along transition Documented (MtuAdmission.new ⟨1300⟩)
      [.discover narrow_mtu, .discover wide_mtu] ∧
    ¬ (MtuAdmission.new ⟨1300⟩).NeverGrows [.discover narrow_mtu, .discover wide_mtu] ∧
    ¬ Along transition Documented (MtuAdmission.new ⟨1300⟩)
      [.discover narrow_mtu, .blackhole, .discover narrow_mtu] := by
  have hfirst : ∀ {g : MtuAdmission} {mtu : DatagramMtu}, g.state ≠ .Unknown →
      g.state ≠ .Available mtu mtu.effective_payload → ¬ g.Documented (.discover mtu) := by
    intro g mtu hknown hother hdocumented
    rcases documented_iff.mp hdocumented mtu rfl with hstate | hstate
    · exact hknown hstate
    · exact hother hstate
  refine ⟨?_, ?_, ?_⟩
  · intro hdocumented
    obtain ⟨-, hsecond, -⟩ := hdocumented
    exact hfirst (by decide) (by decide) hsecond
  · intro hnever
    have hgrown := hnever [.discover narrow_mtu] [.discover wide_mtu] [] rfl _ _ _ _ rfl rfl
      (by decide) narrow_mtu wide_mtu rfl rfl
    contradiction
  · intro hdocumented
    obtain ⟨-, -, hthird, -⟩ := hdocumented
    exact hfirst (by decide) (by decide) hthird

end Runs

end StreamGuard.Mtu
