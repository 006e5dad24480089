import DirectTrade.Foundation.Control
import DirectTrade.Foundation.IdentityLog

/-!
A log read entry by entry. A longer log verifies exactly when the shorter one does and
its last entry follows, and a statement that a live host accepted at some instant follows
in the replay at the instant it took effect, within the clock of the replay.
-/

namespace DirectTrade.Foundation

open Library Outcome

namespace IdentityLog

def push (log : IdentityLog) (e : IdentityLogEntry) : IdentityLog :=
  { log with entries := log.entries ++ [e] }

/-- The log up to and including an entry. -/
def upTo (log : IdentityLog) (n : ℕ) : IdentityLog :=
  { log with entries := log.entries.take (n + 1) }

@[simp] theorem push_entries (log : IdentityLog) (e : IdentityLogEntry) :
    (log.push e).entries = log.entries ++ [e] := rfl

theorem upTo_push {log : IdentityLog} {e : IdentityLogEntry} {n : ℕ}
    (h : n < log.entries.length) : (log.push e).upTo n = log.upTo n := by
  simp only [upTo, push]
  rw [List.take_append_of_le_length (by omega)]

theorem upTo_last {log : IdentityLog} {n : ℕ} (h : log.entries.length ≤ n + 1) :
    log.upTo n = log := by
  simp only [upTo]
  rw [List.take_of_length_le h]

end IdentityLog

variable [Crypto]

theorem verifyIdentityLog_eq_ok (log : IdentityLog) (require : Bool) (v : VerifiedIdentityLog) :
    verifyIdentityLog log require = .ok v ↔
      log.entries.length ≤ maxLogEntries ∧
        (∀ e ∈ log.entries, entryShape log.format e = .ok ()) ∧
        ∃ first later, log.entries = first :: later ∧
          (first.transition = none ∧ first.move = none) ∧
          ∃ opened recorded, openLog log.genesis log.enrollment first.effectiveAt = .ok opened ∧
            record require 0 first opened = .ok recorded ∧
            (later.zipIdx 1).foldlM (replayEntry require) recorded = .ok v := by
  simp only [verifyIdentityLog, bind_eq_ok, demand_eq_ok, each_eq_ok]
  cases hentries : log.entries with
  | nil => simp
  | cons first later =>
    simp only [bind_eq_ok, demand_eq_ok]
    constructor
    · rintro ⟨_, ⟨-, hlength⟩, _, hshape, _, hfirst, opened, hopened, recorded, hrecorded, hlater⟩
      exact ⟨hlength, hshape, first, later, rfl, hfirst, opened, recorded, hopened, hrecorded,
        hlater⟩
    · rintro ⟨hlength, hshape, _, _, hcons, hfirst, opened, recorded, hopened, hrecorded, hlater⟩
      obtain ⟨rfl, rfl⟩ := List.cons.inj hcons
      refine ⟨(), ⟨?_, hlength⟩, (), hshape, (), hfirst, opened, hopened, recorded, hrecorded,
        hlater⟩
      exact Nat.le_add_left 1 _

/-- A log with one more entry. -/
theorem verifyIdentityLog_push (log : IdentityLog) (e : IdentityLogEntry) (require : Bool)
    (w : VerifiedIdentityLog) (hne : log.entries ≠ []) :
    verifyIdentityLog (log.push e) require = .ok w ↔
      log.entries.length < maxLogEntries ∧ entryShape log.format e = .ok () ∧
        ∃ v, verifyIdentityLog log require = .ok v ∧
          replayEntry require v (e, log.entries.length) = .ok w := by
  obtain ⟨first, later, hentries⟩ := List.exists_cons_of_ne_nil hne
  have hlast : ((later ++ [e]).zipIdx 1) = later.zipIdx 1 ++ [(e, log.entries.length)] := by
    rw [List.zipIdx_append, hentries]
    simp [Nat.add_comm]
  simp only [verifyIdentityLog_eq_ok, IdentityLog.push_entries, List.length_append,
    List.length_singleton, List.forall_mem_append, List.forall_mem_singleton]
  constructor
  · rintro ⟨hlength, ⟨hshape, hlastShape⟩, _, _, hcons, hfirst, opened, recorded, hopened,
      hrecorded, hlater⟩
    rw [hentries, List.cons_append] at hcons
    obtain ⟨rfl, rfl⟩ := List.cons.inj hcons
    rw [hlast, foldlM_append_eq_ok] at hlater
    obtain ⟨v, hv, he⟩ := hlater
    simp only [List.foldlM_cons, List.foldlM_nil, bind_eq_ok, pure_eq_ok, exists_eq_right] at he
    exact ⟨hlength, hlastShape, v, ⟨by omega, hshape, first, later, hentries, hfirst, opened,
      recorded, hopened, hrecorded, hv⟩, he⟩
  · rintro ⟨hlength, hlastShape, v, ⟨-, hshape, _, _, hcons, hfirst, opened, recorded, hopened,
      hrecorded, hv⟩, he⟩
    rw [hentries] at hcons
    obtain ⟨rfl, rfl⟩ := List.cons.inj hcons
    refine ⟨hlength, ⟨hshape, hlastShape⟩, first, later ++ [e], ?_, hfirst, opened, recorded,
      hopened, hrecorded, ?_⟩
    · rw [hentries, List.cons_append]
    · rw [hlast, foldlM_append_eq_ok]
      refine ⟨v, hv, ?_⟩
      simp only [List.foldlM_cons, List.foldlM_nil, bind_eq_ok, pure_eq_ok, exists_eq_right]
      exact he

/-- A log of its first entry alone. -/
theorem verifyIdentityLog_single (log : IdentityLog) (first : IdentityLogEntry) (require : Bool)
    (v : VerifiedIdentityLog) (h : log.entries = [first]) :
    verifyIdentityLog log require = .ok v ↔
      entryShape log.format first = .ok () ∧ (first.transition = none ∧ first.move = none) ∧
        ∃ opened, openLog log.genesis log.enrollment first.effectiveAt = .ok opened ∧
          record require 0 first opened = .ok v := by
  rw [verifyIdentityLog_eq_ok, h]
  constructor
  · rintro ⟨-, hshape, _, _, hcons, hfirst, opened, recorded, hopened, hrecorded, hlater⟩
    obtain ⟨rfl, rfl⟩ := List.cons.inj hcons
    simp only [List.zipIdx_nil, List.foldlM_nil, pure_eq_ok] at hlater
    subst hlater
    exact ⟨hshape first (by simp), hfirst, opened, hopened, hrecorded⟩
  · rintro ⟨hshape, hfirst, opened, hopened, hrecorded⟩
    refine ⟨by simp [maxLogEntries], ?_, first, [], rfl, hfirst, opened, v, hopened, hrecorded, ?_⟩
    · simpa using hshape
    · simp [pure_eq]

/-- What is recorded of a head without an attestation. -/
def VerifiedIdentityLog.noted (v : VerifiedIdentityLog) (n : ℕ) : VerifiedIdentityLog :=
  { v with
    unattested := v.unattested ++ [n]
    heads := v.heads ++ [⟨v.state.head, v.state.headDigest, v.resolver.epoch, false⟩] }

theorem record_unattested {e : IdentityLogEntry} (n : ℕ) (v : VerifiedIdentityLog)
    (h : e.attestation = none) : record false n e v = .ok (v.noted n) := by
  simp [record, attest, h, pure_eq, VerifiedIdentityLog.noted]

theorem advance_transition {e : IdentityLogEntry} {c : Signed Transition}
    (htransition : e.transition = some c) (hmove : e.move = none) (v w : VerifiedIdentityLog)
    (n : ℕ) :
    advance v n e = .ok w ↔
      ∃ t, replayTransition v.state c e.effectiveAt = .ok t ∧
        (t.head.effectiveAt = e.effectiveAt ∧ t.head.sequence = n) ∧ w = { v with state := t } := by
  simp only [advance, follow, htransition, hmove, bind_eq_ok, demand_eq_ok, pure_eq_ok]
  constructor
  · rintro ⟨_, ⟨t, ht, rfl⟩, _, hreproduced, rfl⟩
    exact ⟨t, ht, hreproduced, rfl⟩
  · rintro ⟨t, ht, hreproduced, rfl⟩
    exact ⟨_, ⟨t, ht, rfl⟩, (), hreproduced, rfl⟩

/-- The log at the binding that a rehome leads to. -/
def VerifiedIdentityLog.moved (v : VerifiedIdentityLog) (t : IdentityState) (audience : String) :
    VerifiedIdentityLog :=
  { v with state := t, former := v.resolvers, resolver := bindingOf t audience }

theorem advance_rehome {e : IdentityLogEntry} {m : Signed Rehome}
    (htransition : e.transition = none) (hmove : e.move = some m) (v w : VerifiedIdentityLog)
    (n : ℕ) :
    advance v n e = .ok w ↔
      ∃ t, replayRehome v.state m e.effectiveAt = .ok t ∧
        (t.head.effectiveAt = e.effectiveAt ∧ t.head.sequence = n) ∧
        w = v.moved t m.body.destination.audience := by
  simp only [advance, follow, htransition, hmove, bind_eq_ok, demand_eq_ok, pure_eq_ok,
    VerifiedIdentityLog.moved]
  constructor
  · rintro ⟨_, ⟨t, ht, rfl⟩, _, hreproduced, rfl⟩
    exact ⟨t, ht, hreproduced, rfl⟩
  · rintro ⟨t, ht, hreproduced, rfl⟩
    exact ⟨_, ⟨t, ht, rfl⟩, (), hreproduced, rfl⟩

/-- The latest acceptance that the window allows lies within the clock of the replay. -/
def WithinClock (c : Signed Transition) (effective : ℤ) : Prop :=
  min (c.body.expiresAt - 1) effective ≤ clockLimit

instance (c : Signed Transition) (effective : ℤ) : Decidable (WithinClock c effective) :=
  inferInstanceAs (Decidable (_ ≤ _))

omit [Crypto] in
@[simp] theorem window_eq_ok (what : String) (issuedAt expiresAt effective previous : ℤ)
    (u : Unit) :
    window what issuedAt expiresAt effective previous = .ok u ↔
      (instant issuedAt ∧ instant expiresAt) ∧ issuedAt ≤ effective ∧ previous ≤ effective ∧
        previous < expiresAt := by
  simp only [window, bind_eq_ok, demand_eq_ok]
  constructor
  · rintro ⟨_, hinstants, _, hissued, _, hmono, hexpires⟩
    exact ⟨hinstants, hissued, hmono, hexpires⟩
  · rintro ⟨hinstants, hissued, hmono, hexpires⟩
    exact ⟨(), hinstants, (), hissued, (), hmono, hexpires⟩

theorem withinClock_of_replay {s t : IdentityState} {c : Signed Transition} {effective : ℤ}
    (h : replayTransition s c effective = .ok t) : WithinClock c effective := by
  simp only [replayTransition, bind_eq_ok, demand_eq_ok, transitionIdentity_eq_ok] at h
  obtain ⟨_, -, _, -, hclock, -⟩ := h
  exact hclock.2

/-- A transition that a live host accepted follows in the replay, at the instant it took
effect: the bound of the lease barrier is exactly what a timely state allows. -/
theorem replay_of_transition {s t : IdentityState} {c : Signed Transition} {now : ℤ}
    (hs : s.Timely) (h : transitionIdentity s c now = .ok t)
    (hclock : WithinClock c t.head.effectiveAt) (lease update : ℤ) :
    ∃ lease' update', replayTransition (s.withLease lease update) c t.head.effectiveAt =
      .ok (t.withLease lease' update') := by
  obtain ⟨hnow, ⟨hupdate, hsettled⟩, ⟨hissued, hexpires⟩, hauth, rfl⟩ :=
    (transitionIdentity_eq_ok s t c now).mp h
  have hlease : s.lastLeaseExpiry ≤ s.lastUpdate + leaseMs := hs
  have hleaseMs : leaseMs = 30000 := rfl
  have hmargin : clockMarginMs = 5000 := rfl
  generalize heffective : max now (s.lastLeaseExpiry + clockMarginMs) = effective at *
  have hlow : now ≤ effective := by omega
  have hhigh : effective ≤ now + leaseMs + clockMarginMs := by omega
  have hat : (s.transitioned c.body now effective).head.effectiveAt = effective := rfl
  rw [hat] at hclock ⊢
  have hbound : min (c.body.expiresAt - 1) effective ≤ clockLimit := hclock
  refine ⟨effective - clockMarginMs, min (c.body.expiresAt - 1) effective, ?_⟩
  simp only [replayTransition, bind_eq_ok, demand_eq_ok, window_eq_ok]
  have hprevious : (s.withLease lease update).head.effectiveAt = s.head.effectiveAt := rfl
  have hnonneg := hnow.1
  rw [hprevious]
  refine ⟨(), ⟨⟨hauth.issued, hauth.expires⟩, by omega, by omega, by omega⟩, (), by omega, ?_⟩
  rw [transitionIdentity_eq_ok]
  refine ⟨⟨by omega, hbound⟩, ⟨?_, ?_⟩, ⟨by omega, by omega⟩, hauth.withLease _ _, ?_⟩
  · show s.head.effectiveAt ≤ min (c.body.expiresAt - 1) effective
    omega
  · show s.head.effectiveAt ≤ min (c.body.expiresAt - 1) effective
    omega
  · have hbarrier : max (min (c.body.expiresAt - 1) effective)
        (effective - clockMarginMs + clockMarginMs) = effective := by omega
    show _ = (s.withLease (effective - clockMarginMs) s.head.effectiveAt).transitioned _ _
      (max _ (effective - clockMarginMs + clockMarginMs))
    rw [hbarrier]
    rfl

/-- An adopted rehome follows in the replay at the instant of its adoption. -/
theorem replay_of_rehome {s t : IdentityState} {m : Signed Rehome} {now : ℤ}
    (h : rehomeIdentity s m now = .ok t) (lease update : ℤ) :
    replayRehome (s.withLease lease update) m t.head.effectiveAt = .ok t := by
  obtain ⟨hnow, ⟨-, hsettled⟩, ⟨hissued, hexpires⟩, hauth, ht⟩ :=
    (rehomeIdentity_eq_ok s t m now).mp h
  have hat : t.head.effectiveAt = now := by rw [ht]; rfl
  simp only [replayRehome, bind_eq_ok, demand_eq_ok, window_eq_ok]
  have hprevious : (s.withLease lease update).head.effectiveAt = s.head.effectiveAt := rfl
  rw [hprevious, hat]
  refine ⟨(), ⟨⟨hauth.issued, hauth.expires⟩, hissued, hsettled, by omega⟩, (), hexpires, ?_⟩
  exact rehomeIdentity_withLease h hsettled

end DirectTrade.Foundation
