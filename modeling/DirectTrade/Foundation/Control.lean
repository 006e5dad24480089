import DirectTrade.Foundation.Identity

/-!
What each operation on an identity asks of the clock, what it asks of the statement, and
the state it leaves. Only the clock and the lease fields tell a live state from the state
of a replay.
-/

namespace DirectTrade.Foundation

open Library Outcome

def clockLimit : ℤ := maxSafeInteger - 300000

@[simp] theorem clock_eq_ok (now : ℤ) (u : Unit) :
    clock now = .ok u ↔ 0 ≤ now ∧ now ≤ clockLimit := by
  simp only [clock, timestamp, bind_eq_ok, demand_eq_ok]
  have hlimit : clockLimit = maxSafeInteger - 300000 := rfl
  constructor
  · rintro ⟨_, ⟨hnonneg, -⟩, hle⟩
    exact ⟨hnonneg, hle⟩
  · rintro ⟨hnonneg, hle⟩
    exact ⟨(), ⟨hnonneg, by omega⟩, hle⟩

namespace IdentityState

/-- The state with other lease fields. -/
def withLease (s : IdentityState) (lease update : ℤ) : IdentityState :=
  { s with lastLeaseExpiry := lease, lastUpdate := update }

variable (s : IdentityState) (lease update : ℤ)

@[simp] theorem withLease_head : (s.withLease lease update).head = s.head := rfl

@[simp] theorem withLease_headDigest : (s.withLease lease update).headDigest = s.headDigest := rfl

@[simp] theorem withLease_lastUpdate : (s.withLease lease update).lastUpdate = update := rfl

@[simp] theorem withLease_lastLeaseExpiry :
    (s.withLease lease update).lastLeaseExpiry = lease := rfl

@[simp] theorem withLease_withLease (lease' update' : ℤ) :
    (s.withLease lease update).withLease lease' update' = s.withLease lease' update' := rfl

@[simp] theorem withLease_self : s.withLease s.lastLeaseExpiry s.lastUpdate = s := rfl

/-- The lease on a state outlives its last update by one lease at most. -/
def Timely : Prop := s.lastLeaseExpiry ≤ s.lastUpdate + leaseMs

/-- The bindings of a state: the resolver it is held at. -/
def sameBinding (t : IdentityState) : Prop :=
  s.resolverId = t.resolverId ∧ s.resolverKey = t.resolverKey ∧ s.resolverEpoch = t.resolverEpoch

end IdentityState

variable [Crypto]

/-- What a transition owes to the head it follows, whatever the clock says. -/
structure TransitionAuthorized (s : IdentityState) (c : Signed Transition) : Prop where
  identity : c.body.identityId = s.head.identityId
  expected : c.body.expectedDigest = s.headDigest
  sequence : c.body.sequence = s.head.sequence + 1
  safe : (c.body.sequence : ℤ) ≤ maxSafeInteger
  issued : 0 ≤ c.body.issuedAt ∧ c.body.issuedAt ≤ maxSafeInteger
  expires : 0 ≤ c.body.expiresAt ∧ c.body.expiresAt ≤ maxSafeInteger
  lifetime : c.body.issuedAt < c.body.expiresAt ∧ c.body.expiresAt - c.body.issuedAt ≤ 300000
  sets : sets c.body.operational c.body.recovery = .ok ()
  signed : ∃ signers, verified c.signatures (.transition c.body) = .ok signers ∧
    (c.body.kind.authority s.head).signedBy signers ∧
    ∀ k ∈ c.body.keys, k ∉ s.head.keys → k ∈ signers
  confined : c.body.confined s.head = .ok ()
  resolver : s.resolverKey ∉ c.body.keys
  unretired : ∀ k ∈ c.body.keys, k ∉ s.retiredKeys
  capacity : (retire s c.body).length ≤ 4096

/-- The head a transition forms. -/
def Transition.next (p : Transition) (effectiveAt : ℤ) : Control :=
  { identityId := p.identityId, sequence := p.sequence, previousDigest := p.expectedDigest
    operational := p.operational, recovery := p.recovery, effectiveAt }

def IdentityState.transitioned (s : IdentityState) (p : Transition) (now effectiveAt : ℤ) :
    IdentityState :=
  { s with
    head := p.next effectiveAt, headDigest := Crypto.digest (.control (p.next effectiveAt))
    retiredKeys := retire s p, lastUpdate := now }

theorem transitionIdentity_eq_ok (s t : IdentityState) (c : Signed Transition) (now : ℤ) :
    transitionIdentity s c now = .ok t ↔
      (0 ≤ now ∧ now ≤ clockLimit) ∧ (s.lastUpdate ≤ now ∧ s.head.effectiveAt ≤ now) ∧
        (c.body.issuedAt ≤ now ∧ now < c.body.expiresAt) ∧ TransitionAuthorized s c ∧
        t = s.transitioned c.body now (max now (s.lastLeaseExpiry + clockMarginMs)) := by
  simp only [transitionIdentity, timestamp, quorum, bind_eq_ok, demand_eq_ok, pure_eq_ok,
    clock_eq_ok]
  constructor
  · rintro ⟨_, hclock, _, hsettled, _, ⟨hid, hexpected, hseq, hsafe⟩, _, hissued, _, hexpires, _,
      ⟨hafter, hbefore, hlt, hspan⟩, _, hsets, signers, hsigned, _, hquorum, _, hconfined, _,
      hresolver, _, hunretired, _, hpossession, _, hcapacity, rfl⟩
    exact ⟨hclock, hsettled, ⟨hafter, hbefore⟩,
      ⟨hid, hexpected, hseq, hsafe, hissued, hexpires, ⟨hlt, hspan⟩, hsets,
        ⟨signers, hsigned, hquorum, hpossession⟩, hconfined, hresolver, hunretired, hcapacity⟩, rfl⟩
  · rintro ⟨hclock, hsettled, ⟨hafter, hbefore⟩, hauth, rfl⟩
    obtain ⟨signers, hsigned, hquorum, hpossession⟩ := hauth.signed
    exact ⟨(), hclock, (), hsettled, (),
      ⟨hauth.identity, hauth.expected, hauth.sequence, hauth.safe⟩, (), hauth.issued, (),
      hauth.expires, (), ⟨hafter, hbefore, hauth.lifetime.1, hauth.lifetime.2⟩, (), hauth.sets,
      signers, hsigned, (), hquorum, (), hauth.confined, (), hauth.resolver, (), hauth.unretired,
      (), hpossession, (), hauth.capacity, rfl⟩

theorem TransitionAuthorized.withLease {s : IdentityState} {c : Signed Transition}
    (h : TransitionAuthorized s c) (lease update : ℤ) :
    TransitionAuthorized (s.withLease lease update) c :=
  { h with }

@[simp] theorem transitioned_withLease (s : IdentityState) (p : Transition)
    (lease update now effectiveAt : ℤ) :
    (s.withLease lease update).transitioned p now effectiveAt =
      (s.transitioned p now effectiveAt).withLease lease now := rfl

/-- What a rehome owes to the head it follows, whatever the clock says. -/
structure RehomeAuthorized (s : IdentityState) (m : Signed Rehome) : Prop where
  identity : m.body.identityId = s.head.identityId
  expected : m.body.expectedDigest = s.headDigest
  sequence : m.body.sequence = s.head.sequence + 1
  safe : (m.body.sequence : ℤ) ≤ maxSafeInteger
  leaves : m.body.source.resolverId = s.resolverId ∧ m.body.source.resolverEpoch = s.resolverEpoch
  epoch : (m.body.destination.resolverEpoch : ℤ) ≤ maxSafeInteger
  advances : m.body.destination.resolverEpoch = s.resolverEpoch + 1
  decodes : key m.body.destination.resolverKey = .ok ()
  audience : origin m.body.destination.audience = .ok ()
  issued : 0 ≤ m.body.issuedAt ∧ m.body.issuedAt ≤ maxSafeInteger
  expires : 0 ≤ m.body.expiresAt ∧ m.body.expiresAt ≤ maxSafeInteger
  lifetime : m.body.issuedAt < m.body.expiresAt ∧ m.body.expiresAt - m.body.issuedAt ≤ 300000
  apart : m.body.destination.resolverKey ∉ s.head.keys ++ s.retiredKeys
  signed : ∃ signers, verified m.signatures (.rehome m.body) = .ok signers ∧
    s.head.recovery.signedBy signers

/-- The head a rehome forms: it commits to the rehome and keeps the key sets. -/
def Rehome.next (p : Rehome) (head : Control) (effectiveAt : ℤ) : Control :=
  { identityId := p.identityId, sequence := p.sequence
    previousDigest := some (Crypto.digest (.message (.rehome p)))
    operational := head.operational, recovery := head.recovery, effectiveAt }

def IdentityState.rehomed (s : IdentityState) (p : Rehome) (now : ℤ) : IdentityState :=
  { s with
    head := p.next s.head now, headDigest := Crypto.digest (.control (p.next s.head now))
    resolverId := p.destination.resolverId, resolverKey := p.destination.resolverKey
    resolverEpoch := p.destination.resolverEpoch
    lastLeaseExpiry := now + leaseMs, lastUpdate := now }

theorem rehomeIdentity_eq_ok (s t : IdentityState) (m : Signed Rehome) (now : ℤ) :
    rehomeIdentity s m now = .ok t ↔
      (0 ≤ now ∧ now ≤ clockLimit) ∧ (s.lastUpdate ≤ now ∧ s.head.effectiveAt ≤ now) ∧
        (m.body.issuedAt ≤ now ∧ now < m.body.expiresAt) ∧ RehomeAuthorized s m ∧
        t = s.rehomed m.body now := by
  simp only [rehomeIdentity, timestamp, quorum, bind_eq_ok, demand_eq_ok, pure_eq_ok, clock_eq_ok]
  constructor
  · rintro ⟨_, hclock, _, hsettled, _, ⟨hid, hexpected, hseq, hsafe⟩, _, hleaves, _,
      ⟨hepoch, hadvances⟩, _, hkey, _, haudience, _, hissued, _, hexpires, _,
      ⟨hafter, hbefore, hlt, hspan⟩, _, hapart, signers, hsigned, _, hquorum, rfl⟩
    exact ⟨hclock, hsettled, ⟨hafter, hbefore⟩,
      ⟨hid, hexpected, hseq, hsafe, hleaves, hepoch, hadvances, hkey, haudience, hissued, hexpires,
        ⟨hlt, hspan⟩, hapart, ⟨signers, hsigned, hquorum⟩⟩, rfl⟩
  · rintro ⟨hclock, hsettled, ⟨hafter, hbefore⟩, hauth, rfl⟩
    obtain ⟨signers, hsigned, hquorum⟩ := hauth.signed
    exact ⟨(), hclock, (), hsettled, (),
      ⟨hauth.identity, hauth.expected, hauth.sequence, hauth.safe⟩, (), hauth.leaves, (),
      ⟨hauth.epoch, hauth.advances⟩, (), hauth.decodes, (), hauth.audience, (), hauth.issued, (),
      hauth.expires, (), ⟨hafter, hbefore, hauth.lifetime.1, hauth.lifetime.2⟩, (), hauth.apart,
      signers, hsigned, (), hquorum, rfl⟩

theorem RehomeAuthorized.withLease {s : IdentityState} {m : Signed Rehome}
    (h : RehomeAuthorized s m) (lease update : ℤ) :
    RehomeAuthorized (s.withLease lease update) m :=
  { h with }

@[simp] theorem rehomed_withLease (s : IdentityState) (p : Rehome) (lease update now : ℤ) :
    (s.withLease lease update).rehomed p now = s.rehomed p now := rfl

/-- The lease fields do not enter a move beyond the clock they hold back. -/
theorem rehomeIdentity_withLease {s t : IdentityState} {m : Signed Rehome} {now : ℤ}
    (h : rehomeIdentity s m now = .ok t) {lease update : ℤ} (hupdate : update ≤ now) :
    rehomeIdentity (s.withLease lease update) m now = .ok t := by
  rw [rehomeIdentity_eq_ok] at h ⊢
  obtain ⟨hclock, ⟨-, hsettled⟩, hwindow, hauth, rfl⟩ := h
  exact ⟨hclock, ⟨hupdate, hsettled⟩, hwindow, hauth.withLease lease update, rfl⟩

/-- The first head of an identity. -/
structure Created (signed : Signed Genesis) (resolverId : Uuid) (resolverKey : KeyId) (now : ℤ)
    (s : IdentityState) : Prop where
  clock : 0 ≤ now ∧ now ≤ clockLimit
  sequence : s.head.sequence = 0
  identity : s.head.identityId = identityOf s.genesisDigest
  effective : s.head.effectiveAt = now
  digest : s.headDigest = Crypto.digest (.control s.head)
  resolver : s.resolverId = resolverId ∧ s.resolverKey = resolverKey ∧ s.resolverEpoch = 0
  decodes : key resolverKey = .ok ()
  retired : s.retiredKeys = []
  lease : s.lastLeaseExpiry = now ∧ s.lastUpdate = now

theorem created_of_createIdentity {signed : Signed Genesis} {resolverId : Uuid}
    {resolverKey : KeyId} {now : ℤ} {s : IdentityState}
    (h : createIdentity signed resolverId resolverKey now = .ok s) :
    Created signed resolverId resolverKey now s := by
  simp only [createIdentity, bind_eq_ok, demand_eq_ok, pure_eq_ok, clock_eq_ok] at h
  obtain ⟨_, hclock, _, hkey, _, -, _, -, _, -, _, -, rfl⟩ := h
  exact ⟨hclock, rfl, rfl, rfl, rfl, ⟨rfl, rfl, rfl⟩, hkey, rfl, ⟨rfl, rfl⟩⟩

theorem enrollment_binding {s : IdentityState} {signed : Signed ResolverEnrollment}
    {audience : String} {now : ℤ} {u : Unit}
    (h : verifyResolverEnrollment s signed audience now = .ok u) :
    signed.body.resolverId = s.resolverId ∧ signed.body.resolverKey = s.resolverKey ∧
      signed.body.audience = audience := by
  simp only [verifyResolverEnrollment, bind_eq_ok, demand_eq_ok] at h
  obtain ⟨_, -, _, -, _, ⟨-, -, hid, hkey, haudience⟩, -⟩ := h
  exact ⟨hid, hkey, haudience⟩

theorem issueResolution_eq_ok (s t : IdentityState) (input : ResolutionRequest) (k : KeyId)
    (now : ℤ) (proof : Signed Resolution) (h : issueResolution s input k now = .ok (t, proof)) :
    (s.lastUpdate ≤ now ∧ s.head.effectiveAt ≤ now) ∧
      t = s.withLease (max s.lastLeaseExpiry (now + leaseMs)) now := by
  simp only [issueResolution, bind_eq_ok, demand_eq_ok, pure_eq_ok, Prod.mk.injEq] at h
  obtain ⟨_, -, _, -, _, -, _, hsettled, rfl, -⟩ := h
  exact ⟨hsettled, rfl⟩

theorem Created.timely {signed : Signed Genesis} {resolverId : Uuid} {resolverKey : KeyId}
    {now : ℤ} {s : IdentityState} (h : Created signed resolverId resolverKey now s) :
    s.Timely := by
  have hlease := h.lease
  simp only [IdentityState.Timely, leaseMs, hlease.1, hlease.2]
  omega

theorem timely_transitioned {s t : IdentityState} {c : Signed Transition} {now : ℤ}
    (hs : s.Timely) (h : transitionIdentity s c now = .ok t) : t.Timely := by
  obtain ⟨-, ⟨hupdate, -⟩, -, -, rfl⟩ := (transitionIdentity_eq_ok s t c now).mp h
  have hlease : s.lastLeaseExpiry ≤ s.lastUpdate + leaseMs := hs
  show s.lastLeaseExpiry ≤ now + leaseMs
  omega

theorem timely_rehomed (s : IdentityState) (p : Rehome) (now : ℤ) : (s.rehomed p now).Timely :=
  Int.le_refl (now + leaseMs)

theorem timely_resolved {s t : IdentityState} {input : ResolutionRequest} {k : KeyId} {now : ℤ}
    {proof : Signed Resolution} (hs : s.Timely)
    (h : issueResolution s input k now = .ok (t, proof)) : t.Timely := by
  obtain ⟨⟨hupdate, -⟩, rfl⟩ := issueResolution_eq_ok s t input k now proof h
  have hlease : s.lastLeaseExpiry ≤ s.lastUpdate + leaseMs := hs
  show max s.lastLeaseExpiry (now + leaseMs) ≤ now + leaseMs
  omega

end DirectTrade.Foundation
