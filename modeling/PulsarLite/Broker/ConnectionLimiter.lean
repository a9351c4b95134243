import PulsarLite.Library.OrderedMap

/-!
# Connection limits

A connection holds a permit until it is dropped. Whoever connects and leaves, the limiter
counts the permits that are held, keeps to both limits and lets in whom they allow.
-/

namespace PulsarLite.Broker

open Library OrderedMap

variable {ι : Type} [LinearOrder ι]

structure ConnectionLimiter (ι : Type) [LinearOrder ι] where
  maxConnections : Nat
  maxConnectionsPerIp : Nat
  totalConnections : Nat
  connectionsPerIp : OrderedMap ι Nat

namespace ConnectionLimiter

def new (maxConnections maxConnectionsPerIp : Nat) : ConnectionLimiter ι :=
  ⟨maxConnections, maxConnectionsPerIp, 0, .empty⟩

variable (limiter : ConnectionLimiter ι) (ip : ι)

def tryAcquire [ToString ι] : Except String (ConnectionLimiter ι) :=
  if 0 < limiter.maxConnections ∧ limiter.maxConnections ≤ limiter.totalConnections then
    .error "Reached the maximum number of broker connections"
  else
    let perIp := (limiter.connectionsPerIp.find ip).getD 0
    if 0 < limiter.maxConnectionsPerIp ∧ limiter.maxConnectionsPerIp ≤ perIp then
      .error ("Reached the maximum number of connections for address " ++ toString ip)
    else .ok { limiter with
      totalConnections := limiter.totalConnections + 1
      connectionsPerIp := limiter.connectionsPerIp.insert ip (perIp + 1) }

def release : ConnectionLimiter ι :=
  { limiter with
    totalConnections := limiter.totalConnections - 1
    connectionsPerIp :=
      match limiter.connectionsPerIp.find ip with
      | none => limiter.connectionsPerIp
      | some count =>
        if count - 1 = 0 then limiter.connectionsPerIp.erase ip
        else limiter.connectionsPerIp.insert ip (count - 1) }

end ConnectionLimiter

inductive ConnectionEvent (ι : Type)
  | connects (ip : ι)
  | leaves (ip : ι)

/-- The limiter, and the addresses of the permits that are held. -/
structure Connections (ι : Type) [LinearOrder ι] where
  limiter : ConnectionLimiter ι
  permits : List ι

namespace Connections

/-- Only a permit that is held is dropped. -/
def step [ToString ι] (state : Connections ι) : ConnectionEvent ι → Connections ι
  | .connects ip =>
    match state.limiter.tryAcquire ip with
    | .ok limiter => ⟨limiter, ip :: state.permits⟩
    | .error _ => state
  | .leaves ip =>
    if ip ∈ state.permits then ⟨state.limiter.release ip, state.permits.erase ip⟩ else state

/-- An address without permits is not even listed. -/
structure Accounted (most mostPerIp : Nat) (state : Connections ι) : Prop where
  limits : state.limiter.maxConnections = most ∧ state.limiter.maxConnectionsPerIp = mostPerIp
  total : state.limiter.totalConnections = state.permits.length
  perIp : ∀ ip, state.limiter.connectionsPerIp.find ip =
    if state.permits.count ip = 0 then none else some (state.permits.count ip)
  under : most = 0 ∨ state.permits.length ≤ most
  underPerIp : ∀ ip, mostPerIp = 0 ∨ state.permits.count ip ≤ mostPerIp

section

variable {state : Connections ι} {most mostPerIp : Nat} (accounted : Accounted most mostPerIp state)
include accounted

theorem Accounted.try_acquire [ToString ι] (ip : ι) :
    ((∃ limiter, state.limiter.tryAcquire ip = .ok limiter) ↔
      (most = 0 ∨ state.permits.length < most) ∧
      (mostPerIp = 0 ∨ state.permits.count ip < mostPerIp)) ∧
    ∀ limiter, state.limiter.tryAcquire ip = .ok limiter →
      Accounted most mostPerIp ⟨limiter, ip :: state.permits⟩ := by
  have perIp : (state.limiter.connectionsPerIp.find ip).getD 0 = state.permits.count ip := by
    rw [accounted.perIp]
    split_ifs with none
    · exact none.symm
    · rfl
  have under := accounted.under
  simp only [ConnectionLimiter.tryAcquire, accounted.limits, accounted.total, perIp]
  split_ifs with full fullPerIp
  · simp
    omega
  · simp
    omega
  refine ⟨by simp; omega, ?_⟩
  rintro limiter ⟨⟩
  refine ⟨⟨rfl, rfl⟩, by simp, fun other => ?_, by simp; omega, fun other => ?_⟩
  · rw [find_insert, accounted.perIp, List.count_cons]
    by_cases same : other = ip
    · simp [same]
    · simp [same, Ne.symm same]
  · have before := accounted.underPerIp other
    rw [List.count_cons]
    split_ifs with same
    · rw [beq_iff_eq] at same
      subst same
      omega
    · exact before

theorem Accounted.release {ip : ι} (held : ip ∈ state.permits) :
    Accounted most mostPerIp ⟨state.limiter.release ip, state.permits.erase ip⟩ := by
  have some := (List.count_pos_iff.mpr held).ne'
  have fewer := List.length_erase_of_mem held
  have total := accounted.total
  have under := accounted.under
  refine ⟨accounted.limits, ?_, fun other => ?_, ?_, fun other => ?_⟩
  · simp only [ConnectionLimiter.release]
    omega
  · simp only [ConnectionLimiter.release, accounted.perIp ip, if_neg some, List.count_erase]
    by_cases same : other = ip
    · split_ifs <;> simp_all [find_insert, find_erase]
    · split_ifs <;> simp_all [find_insert, find_erase, accounted.perIp]
  · dsimp only
    omega
  · have before := accounted.underPerIp other
    have least := (List.erase_sublist (a := ip) (l := state.permits)).count_le other
    dsimp only
    omega

theorem Accounted.step [ToString ι] (event) : Accounted most mostPerIp (state.step event) := by
  unfold Connections.step
  split
  · split
    next limiter acquired => exact (accounted.try_acquire _).2 limiter acquired
    next => exact accounted
  · split_ifs with held
    · exact accounted.release held
    · exact accounted

end

theorem connections_accounted [ToString ι] (most mostPerIp : Nat)
    (events : List (ConnectionEvent ι)) :
    let after := events.foldl step ⟨.new most mostPerIp, []⟩
    Accounted most mostPerIp after ∧
    ∀ ip, (∃ limiter, after.limiter.tryAcquire ip = .ok limiter) ↔
      (most = 0 ∨ after.permits.length < most) ∧
      (mostPerIp = 0 ∨ after.permits.count ip < mostPerIp) := by
  intro after
  have accounted : Accounted most mostPerIp after := by
    apply List.foldlRecOn (motive := Accounted most mostPerIp)
    · exact ⟨⟨rfl, rfl⟩, rfl, fun _ => rfl, .inr (Nat.zero_le _), fun _ => .inr (Nat.zero_le _)⟩
    · exact fun _ before event _ => before.step event
  exact ⟨accounted, fun ip => (accounted.try_acquire ip).1⟩

end Connections

end PulsarLite.Broker
