import DirectTrade.Foundation.Lineage
import Mathlib.Data.List.Nodup

/-!
What the judgement of a log establishes. An admitted log continues the binding of the pin,
reaches the pinned head, and carries the destination's attestation for every move past the
pinned epoch; it departs from the pinned checkpoint only at a higher epoch, with the
precedence verdict of the history that the party holds.
-/

namespace DirectTrade.Foundation

open Library Outcome

section
variable [Crypto] {log : IdentityLog} {v : VerifiedIdentityLog}

theorem Lineage.epoch_le (h : Lineage log v) {r : ResolverBinding} (hr : r ∈ v.resolvers) :
    r.epoch ≤ v.resolver.epoch := by
  have hmem : r.epoch ∈ v.resolvers.map ResolverBinding.epoch := List.mem_map_of_mem hr
  rw [h.epochs, List.mem_range] at hmem
  omega

/-- One binding an epoch. -/
theorem Lineage.binding_unique (h : Lineage log v) {r t : ResolverBinding}
    (hr : r ∈ v.resolvers) (ht : t ∈ v.resolvers) (hepoch : r.epoch = t.epoch) : r = t := by
  have hnodup : (v.resolvers.map ResolverBinding.epoch).Nodup := by
    rw [h.epochs]
    exact List.nodup_range
  exact List.inj_on_of_nodup_map hnodup hr ht hepoch

omit [Crypto] in
theorem resolver_mem (v : VerifiedIdentityLog) : v.resolver ∈ v.resolvers :=
  List.mem_append_right _ (List.mem_singleton_self _)

theorem Lineage.find_resolver (h : Lineage log v) :
    (v.resolvers.find? fun r => r.epoch = v.resolver.epoch) = some v.resolver := by
  cases hfind : v.resolvers.find? fun r => r.epoch = v.resolver.epoch with
  | none =>
    have hnone := List.find?_eq_none.mp hfind v.resolver (resolver_mem v)
    exact absurd (decide_eq_true rfl) hnone
  | some r =>
    have hmem := List.mem_of_find?_eq_some hfind
    have hepoch : r.epoch = v.resolver.epoch := by simpa using List.find?_some hfind
    rw [h.binding_unique hmem (resolver_mem v) hepoch]

/-- The checkpoint of the last head is consistent with the log. -/
theorem Lineage.compare_last (h : Lineage log v) :
    compareCheckpoint v v.head.sequence v.headDigest = .consistent := by
  obtain ⟨last, hget, -, hdigest, -⟩ := h.last
  have hget : v.heads[v.head.sequence]? = some last := hget
  rw [compareCheckpoint, hget]
  exact if_pos hdigest

theorem compare_of_reaches (h : Lineage log v) {n : ℕ} (hn : n ≤ v.head.sequence) (d : Digest) :
    compareCheckpoint v n d ≠ .conflict ↔ v.heads[n]?.map VerifiedHead.headDigest = some d := by
  have hsequence := h.sequence
  have hbound : n < v.heads.length := by
    have hle : n ≤ v.state.head.sequence := hn
    omega
  simp only [compareCheckpoint, List.getElem?_eq_getElem hbound, Option.map_some,
    Option.some.injEq]
  by_cases hd : v.heads[n].headDigest = d <;> simp [hd]

omit [Crypto] in
theorem unadopted_eq_false {epoch : ℕ} {heads : List VerifiedHead}
    (h : unadopted epoch heads = false) (n : ℕ) (prior next : VerifiedHead)
    (hprior : heads[n]? = some prior) (hnext : heads[n + 1]? = some next)
    (hmoved : next.epoch ≠ prior.epoch) (hpast : epoch < next.epoch) : next.attested = true := by
  have hpair : (prior, next) ∈ heads.zip heads.tail := by
    apply List.mem_of_getElem? (i := n)
    rw [List.getElem?_zip_eq_some]
    refine ⟨hprior, ?_⟩
    rw [List.getElem?_tail]
    exact hnext
  have hnot := List.any_eq_false.mp h _ hpair
  simp only [Bool.and_eq_true, decide_eq_true_eq, Bool.not_eq_true', not_and,
    Bool.not_eq_false] at hnot
  exact hnot ⟨hmoved, hpast⟩

omit [Crypto] in
theorem unadopted_of_le {epoch : ℕ} {heads : List VerifiedHead}
    (h : ∀ x ∈ heads, x.epoch ≤ epoch) : unadopted epoch heads = false := by
  rw [unadopted, List.any_eq_false]
  intro pair hpair
  have hmem : pair.2 ∈ heads := List.mem_of_mem_tail (List.of_mem_zip hpair).2
  have hle := h pair.2 hmem
  have hnot : ¬epoch < pair.2.epoch := by omega
  simp [hnot]

/-- What an admission rests on. -/
structure Admits (pin : ResolverPin) (v : VerifiedIdentityLog)
    (pinned : Option VerifiedIdentityLog) (a : IdentityLogAdmission) : Prop where
  identity : v.identityId = pin.identityId
  ranked : ∃ r, ranking v pinned = .ok r ∧ r ≠ some .conflict
  known : ∃ r ∈ v.resolvers, r.epoch = pin.resolverEpoch ∧ r.id = pin.resolverId ∧
    r.keyId = pin.resolverKey
  reaches : pin.minimumSequence ≤ v.head.sequence
  adopted : unadopted pin.resolverEpoch v.heads = false
  stored : a.pin = v.pin
  checkpoint : ∀ d ∈ pin.minimumDigest, compareCheckpoint v pin.minimumSequence d = .conflict →
    pin.resolverEpoch < v.resolver.epoch ∧ pinned.isSome = true ∧ a.outcome = .superseded
  superseded : a.outcome = .superseded → ∃ d ∈ pin.minimumDigest,
    compareCheckpoint v pin.minimumSequence d = .conflict

omit [Crypto] in
theorem judgeCheckpoint_eq_admission {pin : ResolverPin} {v : VerifiedIdentityLog} {held : Bool}
    {a : IdentityLogAdmission} (h : judgeCheckpoint pin v held = .admission a) :
    a.pin = v.pin ∧
      (∀ d ∈ pin.minimumDigest, compareCheckpoint v pin.minimumSequence d = .conflict →
        pin.resolverEpoch < v.resolver.epoch ∧ held = true ∧ a.outcome = .superseded) ∧
      (a.outcome = .superseded → ∃ d ∈ pin.minimumDigest,
        compareCheckpoint v pin.minimumSequence d = .conflict) := by
  have hplain : (if v.head.sequence = pin.minimumSequence ∧ v.resolver.epoch = pin.resolverEpoch
      then Admitted.unchanged else .advanced) ≠ .superseded := by
    split <;> exact nofun
  unfold judgeCheckpoint at h
  cases hdigest : pin.minimumDigest with
  | none =>
    rw [hdigest] at h
    obtain rfl := IdentityLogJudgement.admission.inj h
    exact ⟨rfl, nofun, fun hs => absurd hs hplain⟩
  | some digest =>
    rw [hdigest] at h
    dsimp only at h
    by_cases hconflict : compareCheckpoint v pin.minimumSequence digest = .conflict
    · rw [if_neg (not_not.mpr hconflict)] at h
      by_cases hrank : v.resolver.epoch ≤ pin.resolverEpoch ∨ held = false
      · rw [if_pos hrank] at h
        exact nomatch h
      · rw [if_neg hrank] at h
        obtain rfl := IdentityLogJudgement.admission.inj h
        rw [not_or] at hrank
        refine ⟨rfl, fun _ _ _ => ⟨by omega, by simpa using hrank.2, rfl⟩, fun _ => ?_⟩
        exact ⟨digest, rfl, hconflict⟩
    · rw [if_pos hconflict] at h
      obtain rfl := IdentityLogJudgement.admission.inj h
      refine ⟨rfl, ?_, fun hs => absurd hs hplain⟩
      intro d hd hc
      obtain rfl : digest = d := Option.some.inj hd
      exact absurd hc hconflict

omit [Crypto] in
theorem judgeVerified_eq_admission {pin : ResolverPin} {v : VerifiedIdentityLog}
    {pinned : Option VerifiedIdentityLog} {refused : Bool} {a : IdentityLogAdmission}
    (h : judgeVerified pin v pinned refused = .ok (.admission a)) :
    refused = false ∧ Admits pin v pinned a := by
  unfold judgeVerified at h
  by_cases hid : v.identityId = pin.identityId
  · rw [if_neg (not_not.mpr hid)] at h
    cases refused with
    | true => cases h
    | false =>
      simp only [Bool.false_eq_true, if_false, bind_eq_ok, pure_eq_ok] at h
      obtain ⟨r, hrank, h⟩ := h
      by_cases hr : r = some .conflict
      · rw [if_pos hr] at h
        cases h
      rw [if_neg hr] at h
      unfold judgeLineage at h
      cases hfind : v.resolvers.find? fun r => r.epoch = pin.resolverEpoch with
      | none =>
        rw [hfind] at h
        cases h
      | some known =>
        rw [hfind] at h
        simp only at h
        split at h
        · cases h
        rename_i hbinding
        split at h
        · cases h
        rename_i hreaches
        split at h
        · cases h
        rename_i hadopted
        rw [not_or, not_not, not_not] at hbinding
        have hepoch : known.epoch = pin.resolverEpoch := by simpa using List.find?_some hfind
        obtain ⟨hpin, hcheckpoint, hsuperseded⟩ := judgeCheckpoint_eq_admission h
        exact ⟨rfl, hid, ⟨r, hrank, hr⟩,
          ⟨known, List.mem_of_find?_eq_some hfind, hepoch, hbinding.1, hbinding.2⟩, by omega,
          Bool.not_eq_true _ ▸ hadopted, hpin, hcheckpoint, hsuperseded⟩
  · rw [if_pos hid] at h
    cases h

end
end DirectTrade.Foundation
