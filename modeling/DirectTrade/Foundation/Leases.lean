import DirectTrade.Foundation.Completeness
import Mathlib.Algebra.Order.Group.Unbundled.Abs
import Mathlib.Algebra.Order.Group.Unbundled.Int
import Mathlib.Logic.Relation

/-!
Leases and key changes. A resolver issues no lease on a pending head, and a new head waits
for the last lease on the heads before it and for the margin between two clocks. So two
verifiers whose clocks agree within the margin never accept two key sets at one moment,
neither at one resolver nor across a move to another.
-/

namespace DirectTrade.Foundation

open Library Outcome

/-- An identity at its resolver, with the leases issued there. -/
structure Holding where
  state : IdentityState
  issued : List (Signed Resolution)

section
variable [Crypto]

namespace Holding

/-- One accepted call at the resolver. -/
inductive Step (resolverKey : KeyId) : Holding → Holding → Prop where
  | issue {r : Holding} {request : ResolutionRequest} {now : ℤ} {t : IdentityState}
      {proof : Signed Resolution}
      (issued : issueResolution r.state request resolverKey now = .ok (t, proof)) :
      Step resolverKey r ⟨t, r.issued ++ [proof]⟩
  | transition {r : Holding} {command : Signed Transition} {now : ℤ} {t : IdentityState}
      (accepted : transitionIdentity r.state command now = .ok t) :
      Step resolverKey r ⟨t, r.issued⟩

/-- What a resolver does with an identity that it takes over in a state. -/
def Run (resolverKey : KeyId) (s : IdentityState) (r : Holding) : Prop :=
  Relation.ReflTransGen (Step resolverKey) ⟨s, []⟩ r

end Holding

/-- What an issued lease says. -/
structure Leases (s : IdentityState) (now : ℤ) (b : Resolution) : Prop where
  head : b.head = s.head
  issued : b.issuedAt = now
  expires : b.expiresAt = now + leaseMs

theorem leases_of_issue {s t : IdentityState} {input : ResolutionRequest} {k : KeyId} {now : ℤ}
    {proof : Signed Resolution} (h : issueResolution s input k now = .ok (t, proof)) :
    Leases s now proof.body := by
  simp only [issueResolution, bind_eq_ok, demand_eq_ok, pure_eq_ok, Prod.mk.injEq] at h
  obtain ⟨_, -, _, -, _, -, _, -, -, rfl⟩ := h
  exact ⟨rfl, rfl, rfl⟩

theorem window_of_verify {proof : Signed Resolution} {expected : Expected} {now : ℤ}
    {control : Control} (h : verifyResolution proof expected now = .ok control) :
    proof.body.issuedAt ≤ now ∧ now < proof.body.expiresAt := by
  simp only [verifyResolution, bind_eq_ok, demand_eq_ok] at h
  obtain ⟨_, -, _, -, _, -, _, -, _, -, _, -, _, ⟨hissued, hexpires, -⟩, -⟩ := h
  exact ⟨hissued, hexpires⟩

/-- A lease has run out, with the margin, before another is issued. -/
def Precedes (a b : Resolution) : Prop := a.expiresAt + clockMarginMs ≤ b.issuedAt

/-- Leases apart in time are never accepted at one moment. -/
theorem Precedes.apart {p q : Signed Resolution} (h : Precedes p.body q.body)
    {e e' : Expected} {now now' : ℤ} {c c' : Control}
    (hp : verifyResolution p e now = .ok c) (hq : verifyResolution q e' now' = .ok c') :
    now + clockMarginMs < now' := by
  have hlast := (window_of_verify hp).2
  have hfirst := (window_of_verify hq).1
  have hgap : p.body.expiresAt + clockMarginMs ≤ q.body.issuedAt := h
  omega

/-- Every lease is within the barrier of the state, and leases on different heads are
apart. -/
structure Excludes (s : IdentityState) (issued : List (Signed Resolution)) : Prop where
  within : ∀ p ∈ issued, p.body.expiresAt ≤ s.lastLeaseExpiry
  waited : ∀ p ∈ issued, p.body.head = s.head ∨
    p.body.expiresAt + clockMarginMs ≤ s.head.effectiveAt
  apart : ∀ p ∈ issued, ∀ q ∈ issued, p.body.head = q.body.head ∨
    Precedes p.body q.body ∨ Precedes q.body p.body

omit [Crypto] in
theorem excludes_nil (s : IdentityState) : Excludes s [] := ⟨nofun, nofun, nofun⟩

theorem Excludes.issue {s t : IdentityState} {issued : List (Signed Resolution)}
    {request : ResolutionRequest} {k : KeyId} {now : ℤ} {proof : Signed Resolution}
    (h : Excludes s issued) (hissue : issueResolution s request k now = .ok (t, proof)) :
    Excludes t (issued ++ [proof]) := by
  obtain ⟨⟨-, hsettled⟩, rfl⟩ := issueResolution_eq_ok s t request k now proof hissue
  have hlease := leases_of_issue hissue
  have hexpires := hlease.expires
  have hissued := hlease.issued
  -- a lease on an earlier head ran out before the head of this one took effect
  have hnew : ∀ p ∈ issued, p.body.head = proof.body.head ∨ Precedes p.body proof.body := by
    intro p hp
    rcases h.waited p hp with hhead | hwaited
    · exact .inl (hhead.trans hlease.head.symm)
    · refine .inr ?_
      show p.body.expiresAt + clockMarginMs ≤ proof.body.issuedAt
      omega
  refine ⟨?_, ?_, ?_⟩
  · intro p hp
    show p.body.expiresAt ≤ max s.lastLeaseExpiry (now + leaseMs)
    rcases List.mem_append.mp hp with hold | hlast
    · have hwithin := h.within p hold
      omega
    · obtain rfl := List.mem_singleton.mp hlast
      omega
  · intro p hp
    rcases List.mem_append.mp hp with hold | hlast
    · exact h.waited p hold
    · obtain rfl := List.mem_singleton.mp hlast
      exact .inl hlease.head
  · intro p hp q hq
    rcases List.mem_append.mp hp with hpold | hplast <;>
      rcases List.mem_append.mp hq with hqold | hqlast
    · exact h.apart p hpold q hqold
    · obtain rfl := List.mem_singleton.mp hqlast
      exact (hnew p hpold).imp_right .inl
    · obtain rfl := List.mem_singleton.mp hplast
      exact (hnew q hqold).imp Eq.symm .inr
    · obtain rfl := List.mem_singleton.mp hplast
      obtain rfl := List.mem_singleton.mp hqlast
      exact .inl rfl

theorem Excludes.transition {s t : IdentityState} {issued : List (Signed Resolution)}
    {c : Signed Transition} {now : ℤ} (h : Excludes s issued)
    (haccept : transitionIdentity s c now = .ok t) : Excludes t issued := by
  obtain ⟨-, -, -, -, rfl⟩ := (transitionIdentity_eq_ok s t c now).mp haccept
  refine ⟨h.within, ?_, h.apart⟩
  intro p hp
  have hwithin := h.within p hp
  refine .inr ?_
  show p.body.expiresAt + clockMarginMs ≤ max now (s.lastLeaseExpiry + clockMarginMs)
  omega

theorem Holding.Run.excludes {k : KeyId} {s : IdentityState} {r : Holding}
    (h : Holding.Run k s r) : Excludes r.state r.issued := by
  induction h with
  | refl => exact excludes_nil s
  | tail _ hstep ih =>
    cases hstep with
    | issue hissue => exact ih.issue hissue
    | transition haccept => exact ih.transition haccept

/-- No lease on a head other than one, before an instant. -/
structure Barred (head : Control) (barrier : ℤ) (s : IdentityState)
    (issued : List (Signed Resolution)) : Prop where
  held : barrier ≤ s.lastLeaseExpiry
  waits : s.head = head ∨ barrier + clockMarginMs ≤ s.head.effectiveAt
  barred : ∀ q ∈ issued, q.body.head = head ∨ barrier + clockMarginMs ≤ q.body.issuedAt

theorem Barred.step {head : Control} {barrier : ℤ} {k : KeyId} {r r' : Holding}
    (h : Barred head barrier r.state r.issued) (hstep : Holding.Step k r r') :
    Barred head barrier r'.state r'.issued := by
  have hheld := h.held
  cases hstep with
  | @issue request now t proof hissue =>
    obtain ⟨⟨-, hsettled⟩, rfl⟩ := issueResolution_eq_ok _ t request k now proof hissue
    have hlease := leases_of_issue hissue
    have hissued := hlease.issued
    refine ⟨?_, h.waits, ?_⟩
    · show barrier ≤ max r.state.lastLeaseExpiry (now + leaseMs)
      omega
    · intro q hq
      rcases List.mem_append.mp hq with hold | hlast
      · exact h.barred q hold
      · obtain rfl := List.mem_singleton.mp hlast
        rcases h.waits with hhead | hwaits
        · exact .inl (hlease.head.trans hhead)
        · exact .inr (by omega)
  | @transition c now t haccept =>
    obtain ⟨-, -, -, -, rfl⟩ := (transitionIdentity_eq_ok _ t c now).mp haccept
    refine ⟨hheld, .inr ?_, h.barred⟩
    show barrier + clockMarginMs ≤ max now (r.state.lastLeaseExpiry + clockMarginMs)
    omega

theorem Holding.Run.barred {k : KeyId} {s : IdentityState} {r : Holding}
    (h : Holding.Run k s r) : Barred s.head s.lastLeaseExpiry r.state r.issued := by
  induction h with
  | refl => exact ⟨le_refl _, .inl rfl, nofun⟩
  | tail _ hstep ih => exact ih.step hstep

/-- A lease of the former resolver that is no younger than the adoption has run out, with
the margin, before the new resolver issues one on a later head. -/
theorem precedes_of_adoption {s former : IdentityState} {m : Signed Rehome} {adoption : ℤ}
    (hadopt : rehomeIdentity former m adoption = .ok s) {k : KeyId} {r : Holding}
    (hrun : Holding.Run k s r) {u u' : IdentityState} {request : ResolutionRequest} {k' : KeyId}
    {now : ℤ} {p q : Signed Resolution}
    (hissue : issueResolution u request k' now = .ok (u', p)) (hnow : now ≤ adoption)
    (hq : q ∈ r.issued) (hhead : q.body.head ≠ s.head) : Precedes p.body q.body := by
  obtain ⟨-, -, -, -, rfl⟩ := (rehomeIdentity_eq_ok former s m adoption).mp hadopt
  have hlease := leases_of_issue hissue
  have hexpires := hlease.expires
  have hbarred := (hrun.barred.barred q hq).resolve_left hhead
  have hcarried : (former.rehomed m.body adoption).lastLeaseExpiry = adoption + leaseMs := rfl
  show p.body.expiresAt + clockMarginMs ≤ q.body.issuedAt
  omega

/-- Two verifiers whose clocks agree within the margin never accept two operational key sets
at one moment: of one resolver, whatever it issues and whatever it lets change, and across
a move, while a lease issued before the adoption is still acceptable. -/
theorem leases_exclude_keys {k : KeyId} {s : IdentityState} {r : Holding}
    (hrun : Holding.Run k s r) :
    (∀ p ∈ r.issued, ∀ q ∈ r.issued, p.body.head.operational ≠ q.body.head.operational →
      ∀ e e' now now' c c', verifyResolution p e now = .ok c →
        verifyResolution q e' now' = .ok c' → clockMarginMs < |now - now'|) ∧
    ∀ former m adoption, rehomeIdentity former m adoption = .ok s →
      ∀ u u' request k' now p, issueResolution u request k' now = .ok (u', p) → now ≤ adoption →
        ∀ q ∈ r.issued, q.body.head ≠ s.head →
          ∀ e e' now now' c c', verifyResolution p e now = .ok c →
            verifyResolution q e' now' = .ok c' → clockMarginMs < |now - now'| := by
  constructor
  · intro p hp q hq hkeys e e' now now' c c' hpok hqok
    rcases hrun.excludes.apart p hp q hq with hhead | hprecedes | hprecedes
    · exact absurd (congrArg Control.operational hhead) hkeys
    · have hgap := hprecedes.apart hpok hqok
      rw [lt_abs]
      omega
    · have hgap := hprecedes.apart hqok hpok
      rw [lt_abs]
      omega
  · intro former m adoption hadopt u u' request k' issued p hissue hbefore q hq hhead
      e e' now now' c c' hpok hqok
    have hgap := (precedes_of_adoption hadopt hrun hissue hbefore hq hhead).apart hpok hqok
    rw [lt_abs]
    omega

end

/-- What an audience asks of a lease that a resolver at its first epoch issues. -/
def sampleExpected (request : ResolutionRequest) : Expected :=
  { request with
    resolverId := 5, resolverKey := 9, resolverEpoch := 0, minimumSequence := 0
    minimumDigest := none }

/-- The same of the resolver that the identity moves to. -/
def sampleExpectedThere (request : ResolutionRequest) : Expected :=
  { sampleExpected request with resolverId := 8, resolverKey := 19, resolverEpoch := 1 }

/-- A lease on the first key set, a rotation at the same instant, and the first lease on
the second key set: at one resolver, and with a move to another before the rotation. -/
theorem leases_exclude_keys_sample :
    letI := sampleCrypto
    (∃ s r p q e, Holding.Run 9 s r ∧ p ∈ r.issued ∧ q ∈ r.issued ∧
      p.body.head.operational ≠ q.body.head.operational ∧
      (verifyResolution p e 1029999).toBool = true ∧
      (verifyResolution q e 1035000).toBool = true ∧
      clockMarginMs < |(1029999 : ℤ) - 1035000|) ∧
    ∃ former move s r u request p q e e', rehomeIdentity former move 1000000 = .ok s ∧
      Holding.Run 19 s r ∧ issueResolution u request 9 1000000 = .ok (former, p) ∧
      q ∈ r.issued ∧ p.body.head.operational ≠ q.body.head.operational ∧
      (verifyResolution p e 1029999).toBool = true ∧
      (verifyResolution q e' 1035000).toBool = true ∧
      clockMarginMs < |(1029999 : ℤ) - 1035000| := by
  let := sampleCrypto
  constructor
  · have hrun : (do
        let s ← createIdentity sampleGenesis 5 9 1000000
        let request : ResolutionRequest := ⟨s.head.identityId, "https://party.example", 0⟩
        let leased ← issueResolution s request 9 1000000
        let rotated ← transitionIdentity leased.1 (sampleRotation leased.1 3 1000000) 1000000
        let last ← issueResolution rotated request 9 1035000
        let first ← verifyResolution leased.2 (sampleExpected request) 1029999
        let second ← verifyResolution last.2 (sampleExpected request) 1035000
        pure (decide (leased.2.body.head.operational ≠ last.2.body.head.operational))) =
        Except.ok true := by decide
    simp only [bind_eq_ok, pure_eq_ok, decide_eq_true_eq] at hrun
    obtain ⟨s, -, ⟨_, p⟩, hp, t, ht, ⟨_, q⟩, hq, first, hfirst, second, hsecond, hkeys⟩ := hrun
    have hreached : Holding.Run 9 s ⟨_, ([] ++ [p]) ++ [q]⟩ :=
      ((Relation.ReflTransGen.refl.tail (.issue hp)).tail (.transition ht)).tail (.issue hq)
    let e := sampleExpected ⟨s.head.identityId, "https://party.example", 0⟩
    refine ⟨s, _, p, q, e, hreached, by simp, by simp, hkeys, ?_, ?_,
      (leases_exclude_keys hreached).1 p (by simp) q (by simp) hkeys _ _ _ _ _ _ hfirst hsecond⟩
    · show Except.toBool (verifyResolution p e 1029999) = true
      rw [hfirst]
      rfl
    · show Except.toBool (verifyResolution q e 1035000) = true
      rw [hsecond]
      rfl
  · have hrun : (do
        let u ← createIdentity sampleGenesis 5 9 1000000
        let request : ResolutionRequest := ⟨u.head.identityId, "https://party.example", 0⟩
        let leased ← issueResolution u request 9 1000000
        let s ← rehomeIdentity leased.1 (sampleRehome leased.1 1000000) 1000000
        let rotated ← transitionIdentity s (sampleRotation s 3 1000000) 1000000
        let last ← issueResolution rotated request 19 1035000
        let first ← verifyResolution leased.2 (sampleExpected request) 1029999
        let second ← verifyResolution last.2 (sampleExpectedThere request) 1035000
        pure (decide (leased.2.body.head.operational ≠ last.2.body.head.operational),
          decide (last.2.body.head ≠ s.head))) = Except.ok (true, true) := by decide
    simp only [bind_eq_ok, pure_eq_ok, Prod.mk.injEq, decide_eq_true_eq] at hrun
    obtain ⟨u, -, ⟨former, p⟩, hp, s, hs, t, ht, ⟨_, q⟩, hq, first, hfirst, second, hsecond,
      hkeys, hhead⟩ := hrun
    have hreached : Holding.Run 19 s ⟨_, [] ++ [q]⟩ :=
      (Relation.ReflTransGen.refl.tail (.transition ht)).tail (.issue hq)
    let request : ResolutionRequest := ⟨u.head.identityId, "https://party.example", 0⟩
    refine ⟨former, _, s, _, u, request, p, q, sampleExpected request,
      sampleExpectedThere request, hs, hreached, hp, by simp, hkeys, ?_, ?_,
      (leases_exclude_keys hreached).2 _ _ _ hs _ _ _ _ _ _ hp le_rfl q (by simp) hhead
        _ _ _ _ _ _ hfirst hsecond⟩
    · show Except.toBool (verifyResolution p (sampleExpected request) 1029999) = true
      rw [hfirst]
      rfl
    · show Except.toBool (verifyResolution q (sampleExpectedThere request) 1035000) = true
      rw [hsecond]
      rfl

end DirectTrade.Foundation
