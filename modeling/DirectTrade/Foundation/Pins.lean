import DirectTrade.Foundation.Completeness
import DirectTrade.Foundation.RelyingParty

/-!
What a relying party keeps over a run of logs, pushes, person operations and refusals, all
of them possibly of conflicting histories: its pin never falls back, what it admits extends
what it had admitted at that epoch, and a departure from its history needs a higher epoch
and the precedence verdict of that history.
-/

namespace DirectTrade.Foundation

open Library Outcome

section
variable [Crypto]

/-- A log that verifies under a stricter policy verifies in the same way. -/
theorem verify_lenient {log : IdentityLog} {require : Bool} {v : VerifiedIdentityLog}
    (h : verifyIdentityLog log require = .ok v) : verifyIdentityLog log false = .ok v := by
  have hattest : ∀ n e (w : VerifiedIdentityLog) unattested,
      attest require n e w = .ok unattested → attest false n e w = .ok unattested := by
    intro n e w unattested ha
    unfold attest at ha ⊢
    cases hattestation : e.attestation with
    | none =>
      rw [hattestation] at ha
      simp only [bind_eq_ok, demand_eq_ok, pure_eq_ok] at ha ⊢
      obtain ⟨_, -, ha⟩ := ha
      exact ⟨(), trivial, ha⟩
    | some signed =>
      rw [hattestation] at ha
      exact ha
  have hrecord : ∀ n e (w x : VerifiedIdentityLog), record require n e w = .ok x →
      record false n e w = .ok x := by
    intro n e w x hx
    simp only [record, bind_eq_ok] at hx ⊢
    obtain ⟨unattested, ha, hx⟩ := hx
    exact ⟨unattested, hattest n e w unattested ha, hx⟩
  rw [verifyIdentityLog_eq_ok] at h ⊢
  obtain ⟨hlength, hshape, first, later, hentries, hfirst, opened, recorded, hopened, hfirstRecord,
    hlater⟩ := h
  refine ⟨hlength, hshape, first, later, hentries, hfirst, opened, recorded, hopened,
    hrecord 0 first opened recorded hfirstRecord, foldlM_of_steps ?_ hlater⟩
  intro entry _ w x hstep
  simp only [replayEntry, bind_eq_ok] at hstep ⊢
  obtain ⟨next, hadvance, hnext⟩ := hstep
  exact ⟨next, hadvance, hrecord entry.2 entry.1 next x hnext⟩

/-- The documents of a log that verifies all lie in a set. -/
def IdentityLog.Within (D : Set Document) (log : IdentityLog) : Prop :=
  ∀ v, verifyIdentityLog log false = .ok v → ∀ d ∈ documents log v, d ∈ D

variable {D : Set Document}

theorem determined_of_within (hD : D.InjOn Crypto.digest) {log log' : IdentityLog}
    {v w : VerifiedIdentityLog} (hv : verifyIdentityLog log false = .ok v)
    (hw : verifyIdentityLog log' false = .ok w) (hlog : log.Within D) (hlog' : log'.Within D) :
    HashChain.Determined VerifiedHead.headDigest v.heads w.heads :=
  determined (lineage_of_verified hv) (lineage_of_verified hw) hD (hlog v hv) (hlog' w hw)

/-- One history is a prefix of the other in its head digests. -/
def Extends (v u : VerifiedIdentityLog) : Prop :=
  u.heads.map VerifiedHead.headDigest <+: v.heads.map VerifiedHead.headDigest

/-- The head digest of a history at a sequence. -/
def VerifiedIdentityLog.digestAt (v : VerifiedIdentityLog) (n : ℕ) : Option Digest :=
  v.heads[n]?.map VerifiedHead.headDigest

theorem digestAt_last {log : IdentityLog} {v : VerifiedIdentityLog} (h : Lineage log v) :
    v.digestAt v.head.sequence = some v.headDigest := by
  obtain ⟨last, hget, -, hdigest, -⟩ := h.last
  show (v.heads[v.state.head.sequence]?).map VerifiedHead.headDigest = _
  rw [hget]
  exact congrArg some hdigest

omit [Crypto] in
theorem digestAt_eq_some {v : VerifiedIdentityLog} {n : ℕ} {d : Digest} :
    v.digestAt n = some d ↔ ∃ h, v.heads[n]? = some h ∧ h.headDigest = d := by
  simp [VerifiedIdentityLog.digestAt]

/-- A history that contains the last head of another extends it. -/
theorem extends_of_digestAt (hD : D.InjOn Crypto.digest) {log log' : IdentityLog}
    {u v : VerifiedIdentityLog} (hu : verifyIdentityLog log false = .ok u)
    (hv : verifyIdentityLog log' false = .ok v) (hlog : log.Within D) (hlog' : log'.Within D)
    (h : v.digestAt u.head.sequence = some u.headDigest) : Extends v u := by
  have hlineage := lineage_of_verified hu
  obtain ⟨last, hget, -, hdigest, -⟩ := hlineage.last
  obtain ⟨b, hb, hbdigest⟩ := digestAt_eq_some.mp h
  exact HashChain.prefix_of_agree (determined_of_within hD hu hv hlog hlog')
    hlineage.sequence.symm hget hb (hdigest.trans hbdigest.symm)

/-- Histories that agree at a sequence agree before it. -/
theorem digestAt_below (hD : D.InjOn Crypto.digest) {log log' : IdentityLog}
    {u v : VerifiedIdentityLog} (hu : verifyIdentityLog log false = .ok u)
    (hv : verifyIdentityLog log' false = .ok v) (hlog : log.Within D) (hlog' : log'.Within D)
    {n m : ℕ} {d : Digest} (hn : u.digestAt n = some d) (hn' : v.digestAt n = some d)
    (hm : m ≤ n) {c : Digest} (hc : u.digestAt m = some c) : v.digestAt m = some c := by
  obtain ⟨a, ha, had⟩ := digestAt_eq_some.mp hn
  obtain ⟨b, hb, hbd⟩ := digestAt_eq_some.mp hn'
  obtain ⟨x, hx, hxc⟩ := digestAt_eq_some.mp hc
  have hbound : m < v.heads.length := by
    have hlt := (List.getElem?_eq_some_iff.mp hb).1
    omega
  have hy := List.getElem?_eq_getElem hbound
  have hagree := HashChain.agree_below (determined_of_within hD hu hv hlog hlog') ha hb
    (had.trans hbd.symm) m hm x _ hx hy
  exact digestAt_eq_some.mpr ⟨_, hy, hagree.symm.trans hxc⟩

omit [Crypto] in
theorem agree_of_forkPoint {a b : List VerifiedHead} (h : forkPoint a b = none) (n : ℕ)
    {x y : VerifiedHead} (hx : a[n]? = some x) (hy : b[n]? = some y) :
    x.headDigest = y.headDigest := by
  induction a generalizing b n with
  | nil => exact nomatch hx
  | cons c cs ih =>
    cases b with
    | nil => exact nomatch hy
    | cons d ds =>
      unfold forkPoint at h
      split at h
      · rename_i hcd
        cases n with
        | zero =>
          obtain rfl := Option.some.inj hx
          obtain rfl := Option.some.inj hy
          exact hcd
        | succ n => exact ih (Option.map_eq_none_iff.mp h) n hx hy
      · exact nomatch h

omit [Crypto] in
theorem forkPoint_of_agree {a b : List VerifiedHead}
    (h : ∀ (n : ℕ) x y, a[n]? = some x → b[n]? = some y → x.headDigest = y.headDigest) :
    forkPoint a b = none := by
  induction a generalizing b with
  | nil => rfl
  | cons c cs ih =>
    cases b with
    | nil => rfl
    | cons d ds =>
      unfold forkPoint
      rw [if_pos (h 0 c d rfl rfl), ih fun n x y hx hy => h (n + 1) x y hx hy]
      rfl

omit [Crypto] in
/-- Against a history of a lower epoch that it forks from, a log is superseding or in conflict. -/
theorem supersedes_of_fork {v p : VerifiedIdentityLog} {n : ℕ} {x y : VerifiedHead}
    (hx : v.heads[n]? = some x) (hy : p.heads[n]? = some y) (hxy : x.headDigest ≠ y.headDigest)
    (hepoch : p.resolver.epoch < v.resolver.epoch) {r : Precedence}
    (h : precedence v p = .ok r) (hr : r ≠ .conflict) : r = .aSupersedesB := by
  simp only [precedence, bind_eq_ok] at h
  obtain ⟨_, -, h⟩ := h
  cases hfork : forkPoint v.heads p.heads with
  | none => exact absurd (agree_of_forkPoint hfork n hx hy) hxy
  | some fork =>
    rw [hfork] at h
    have hne : v.resolver.epoch ≠ p.resolver.epoch := by omega
    simp only [hne, if_false, hepoch, if_true, pure_eq_ok] at h
    split at h
    · exact h.symm
    · exact absurd h.symm hr

omit [Crypto] in
/-- Histories without a fork are ranked by their length alone. -/
theorem ranked_of_agree {v p : VerifiedIdentityLog} (hid : v.identityId = p.identityId)
    (hgenesis : v.genesisDigest = p.genesisDigest)
    (h : ∀ (n : ℕ) x y, v.heads[n]? = some x → p.heads[n]? = some y →
      x.headDigest = y.headDigest) :
    ∃ r, precedence v p = .ok r ∧ r ≠ .conflict := by
  simp only [precedence, bind_eq_ok, demand_eq_ok, forkPoint_of_agree h]
  by_cases hlength : v.heads.length = p.heads.length
  · exact ⟨.equal, ⟨(), ⟨hid, hgenesis⟩, by simp [hlength, pure_eq]⟩, by decide⟩
  · by_cases hlonger : v.heads.length > p.heads.length
    · exact ⟨.aExtendsB, ⟨(), ⟨hid, hgenesis⟩, by simp [hlength, hlonger, pure_eq]⟩, by decide⟩
    · exact ⟨.bExtendsA, ⟨(), ⟨hid, hgenesis⟩, by simp [hlength, hlonger, pure_eq]⟩, by decide⟩

/-- Another destination, by its id and by its key. -/
def Leaves (m m' : Signed Rehome) : Prop :=
  m'.body.destination.resolverId ≠ m.body.destination.resolverId ∧
    m'.body.destination.resolverKey ≠ m.body.destination.resolverKey

omit [Crypto] in
theorem escaped_eq_true {m : Signed Rehome} {later : List IdentityLogEntry}
    (h : escaped m later = true) :
    ∃ (k : ℕ) (f : IdentityLogEntry) (m' : Signed Rehome), later[k]? = some f ∧
      f.move = some m' ∧ Leaves m m' := by
  obtain ⟨f, hf, hany⟩ := List.any_eq_true.mp h
  obtain ⟨m', hm', hleaves⟩ := (Option.any_eq_true _ _).mp hany
  obtain ⟨k, hk⟩ := List.mem_iff_getElem?.mp hf
  refine ⟨k, f, m', hk, hm', ?_⟩
  simpa [Leaves] using hleaves

theorem refuses_of_verified {r : Signed RehomeRefusal} {m : Signed Rehome}
    (h : (verifyRehomeRefusal r m).toBool = true) : refuses m r = true := by
  have hdigest : r.body.rehomeDigest = rehomeDigest m := by
    have hok := eq_value r.body h
    unfold verifyRehomeRefusal at hok
    split at hok
    · simp only [bind_eq_ok, demand_eq_ok] at hok
      obtain ⟨_, ⟨-, hdigest, -⟩, -⟩ := hok
      exact hdigest
    · cases hok
  simp [refuses, hdigest, h]

/-- Every refused rehome of a log that passes the scan is escaped by a later one. -/
theorem escaped_of_unrefused {refusals : List (Signed RehomeRefusal)}
    {entries : List IdentityLogEntry} (h : refusedAmong refusals entries = .ok false) (n : ℕ)
    {e : IdentityLogEntry} {m : Signed Rehome} (he : entries[n]? = some e)
    (hm : e.move = some m) {r : Signed RehomeRefusal} (hr : r ∈ refusals)
    (hverified : (verifyRehomeRefusal r m).toBool = true) :
    ∃ (k : ℕ) (f : IdentityLogEntry) (m' : Signed Rehome), n < k ∧ entries[k]? = some f ∧
      f.move = some m' ∧ Leaves m m' := by
  induction entries generalizing n with
  | nil => exact nomatch he
  | cons c later ih =>
    have hrest : refusedAmong refusals later = .ok false ∧
        ∀ m, c.move = some m → refusals.any (refuses m) = true → escaped m later = true := by
      unfold refusedAmong at h
      cases hc : c.rehome with
      | none =>
        rw [hc] at h
        exact nomatch h
      | some member =>
        cases member with
        | none =>
          rw [hc] at h
          refine ⟨h, fun m hmove => ?_⟩
          simp [IdentityLogEntry.move, hc] at hmove
        | some move =>
          rw [hc] at h
          simp only at h
          split at h
          · exact nomatch h
          · rename_i hnot
            refine ⟨h, fun m hmove hany => ?_⟩
            obtain rfl : move = m := by simpa [IdentityLogEntry.move, hc] using hmove
            simpa [hany] using hnot
    cases n with
    | zero =>
      obtain rfl := Option.some.inj he
      have hany : refusals.any (refuses m) = true :=
        List.any_eq_true.mpr ⟨r, hr, refuses_of_verified hverified⟩
      obtain ⟨k, f, m', hf, hm', hleaves⟩ := escaped_eq_true (hrest.2 m hm hany)
      exact ⟨k + 1, f, m', Nat.succ_pos k, hf, hm', hleaves⟩
    | succ n =>
      obtain ⟨k, f, m', hk, hf, hm', hleaves⟩ := ih hrest.1 n he
      exact ⟨k + 1, f, m', Nat.succ_lt_succ hk, hf, hm', hleaves⟩

/-- The order of pins: the epoch first, then the sequence. -/
def ResolverPin.before (p q : ResolverPin) : Prop :=
  p.resolverEpoch < q.resolverEpoch ∨
    (p.resolverEpoch = q.resolverEpoch ∧ p.minimumSequence ≤ q.minimumSequence)

omit [Crypto] in
theorem ResolverPin.before_refl (p : ResolverPin) : p.before p := .inr ⟨rfl, le_refl _⟩

omit [Crypto] in
theorem ResolverPin.before_trans {p q r : ResolverPin} (hpq : p.before q) (hqr : q.before r) :
    p.before r := by
  unfold before at *
  omega

/-- The log continues what the party has pinned: its checkpoint, and the whole history that
it holds. -/
def ContinuesPin (held : PinnedHistory) (v : VerifiedIdentityLog) : Prop :=
  (∀ d ∈ held.pin.minimumDigest, v.digestAt held.pin.minimumSequence = some d) ∧
    ∀ p, heldHistory held.pin held.log = .ok (some p) → Extends v p

/-- The log departs from the pinned history: at a higher epoch, and the history that the party
holds ranks it higher. -/
def SupersedesPin (held : PinnedHistory) (v : VerifiedIdentityLog) : Prop :=
  held.pin.resolverEpoch < v.resolver.epoch ∧
    ∃ p, heldHistory held.pin held.log = .ok (some p) ∧ precedence v p = .ok .aSupersedesB

/-- Every move past an epoch is attested by the destination that the rehome names. -/
def Adopted (epoch : ℕ) (log : IdentityLog) (v : VerifiedIdentityLog) : Prop :=
  ∀ n prior next, v.heads[n]? = some prior → v.heads[n + 1]? = some next →
    next.epoch ≠ prior.epoch → epoch < next.epoch →
    ∃ e m, log.entries[n + 1]? = some e ∧ e.move = some m ∧
      Attests e next m.body.destination.resolverId m.body.destination.resolverKey

/-- Every rehome the party holds a refusal for is followed by one to another destination. -/
def Unrefused (refusals : List (Signed RehomeRefusal)) (log : IdentityLog) : Prop :=
  ∀ (n : ℕ) (e : IdentityLogEntry) (m : Signed Rehome), log.entries[n]? = some e →
    e.move = some m → ∀ r ∈ refusals, (verifyRehomeRefusal r m).toBool = true →
    ∃ (k : ℕ) (f : IdentityLogEntry) (m' : Signed Rehome), n < k ∧ log.entries[k]? = some f ∧
      f.move = some m' ∧ Leaves m m'

theorem unrefused_of_refusedMove {refusals : List (Signed RehomeRefusal)} {log : IdentityLog}
    (h : refusedMove log refusals = .ok false) : Unrefused refusals log := by
  intro n e m he hm r hr hverified
  simp only [refusedMove, bind_eq_ok, demand_eq_ok] at h
  obtain ⟨_, -, h⟩ := h
  have hne : refusals ≠ [] := List.ne_nil_of_mem hr
  rw [if_neg hne] at h
  exact escaped_of_unrefused h n he hm hr hverified

theorem adopted_of_admits {log : IdentityLog} {v : VerifiedIdentityLog} {pin : ResolverPin}
    {pinned : Option VerifiedIdentityLog} {a : IdentityLogAdmission} (hv : Lineage log v)
    (h : Admits pin v pinned a) : Adopted pin.resolverEpoch log v := by
  intro n prior next hprior hnext hmoved hpast
  have hattested := unadopted_eq_false h.adopted n prior next hprior hnext hmoved hpast
  obtain ⟨e, he, hfollows⟩ := hv.follows n prior next hprior hnext
  cases hfollows with
  | transition _ hepoch _ => exact absurd hepoch hmoved
  | @rehome m hmove _ _ _ hstated => exact ⟨e, m, he, hmove, hstated hattested⟩

/-- The history a party holds ends at its pin. -/
theorem heldHistory_eq_some {pin : ResolverPin} {log : Option IdentityLog}
    {p : VerifiedIdentityLog} (h : heldHistory pin log = .ok (some p)) :
    ∃ l, log = some l ∧ verifyIdentityLog l false = .ok p ∧ p.identityId = pin.identityId ∧
      p.resolver.epoch = pin.resolverEpoch ∧ p.head.sequence = pin.minimumSequence ∧
      pin.minimumDigest = some p.headDigest := by
  cases log with
  | none => exact nomatch Except.ok.inj h
  | some l =>
    obtain ⟨q, hq, hqp⟩ := (map_eq_ok _ _ _).mp h
    obtain rfl := Option.some.inj hqp
    simp only [pinnedHistory, bind_eq_ok, demand_eq_ok, pure_eq_ok] at hq
    obtain ⟨x, hx, _, ⟨hid, -, -, hepoch, hsequence, hdigest⟩, rfl⟩ := hq
    exact ⟨l, rfl, hx, hid, hepoch, hsequence, hdigest.symm⟩

/-- What an admission establishes against the pin before it. -/
structure AdmissionSound (held : PinnedHistory) (log : IdentityLog) (v : VerifiedIdentityLog)
    (a : IdentityLogAdmission) : Prop where
  stored : a.pin = v.pin
  forward : held.pin.before a.pin
  continues : ContinuesPin held v ∨ SupersedesPin held v ∧ a.outcome = .superseded
  adopted : Adopted held.pin.resolverEpoch log v
  unrefused : Unrefused held.refusals log

theorem Judged.sound (hD : D.InjOn Crypto.digest) {held : PinnedHistory} {log : IdentityLog}
    {require : Bool} {v : VerifiedIdentityLog} {pinned : Option VerifiedIdentityLog}
    {a : IdentityLogAdmission} (h : Judged held log require v pinned a)
    (hlog : log.Within D) (hheld : ∀ l ∈ held.log, l.Within D) : AdmissionSound held log v a := by
  have hv := verify_lenient h.verified
  have hlineage := lineage_of_verified hv
  obtain ⟨known, hknown, hepoch, -, -⟩ := h.admits.known
  have hle : held.pin.resolverEpoch ≤ v.resolver.epoch := by
    have hbound := hlineage.epoch_le hknown
    omega
  have hreaches := h.admits.reaches
  refine ⟨h.admits.stored, ?_, ?_, adopted_of_admits hlineage h.admits,
    unrefused_of_refusedMove h.unrefused⟩
  · rw [h.admits.stored]
    show held.pin.resolverEpoch < v.resolver.epoch ∨
      (held.pin.resolverEpoch = v.resolver.epoch ∧ held.pin.minimumSequence ≤ v.head.sequence)
    omega
  · by_cases hconflict : ∃ d ∈ held.pin.minimumDigest,
        compareCheckpoint v held.pin.minimumSequence d = .conflict
    · -- only a held history can rank the log above the checkpoint it contradicts
      obtain ⟨d, hd, hconflict⟩ := hconflict
      obtain ⟨hhigher, hsome, houtcome⟩ := h.admits.checkpoint d hd hconflict
      obtain ⟨p, rfl⟩ := Option.isSome_iff_exists.mp hsome
      obtain ⟨l, hl, hp, -, hpEpoch, hpSequence, hpDigest⟩ := heldHistory_eq_some h.history
      obtain rfl : p.headDigest = d := Option.some.inj (hpDigest.symm.trans hd)
      obtain ⟨r, hrank, hr⟩ := h.admits.ranked
      obtain ⟨r, hranked, rfl⟩ := (map_eq_ok _ _ _).mp hrank
      have hplineage := lineage_of_verified hp
      obtain ⟨last, hget, -, hlast, -⟩ := hplineage.last
      have hat : p.state.head.sequence = held.pin.minimumSequence := hpSequence
      rw [hat] at hget
      have hbound : held.pin.minimumSequence < v.heads.length := by
        have hsequence := hlineage.sequence
        have hle' : held.pin.minimumSequence ≤ v.state.head.sequence := hreaches
        omega
      have hne : v.heads[held.pin.minimumSequence].headDigest ≠ last.headDigest := by
        intro heq
        have heq' : v.heads[held.pin.minimumSequence].headDigest = p.headDigest := heq.trans hlast
        simp only [compareCheckpoint, List.getElem?_eq_getElem hbound] at hconflict
        rw [if_pos heq'] at hconflict
        cases hconflict
      have hsupersedes : r = .aSupersedesB :=
        supersedes_of_fork (List.getElem?_eq_getElem hbound) hget hne (by omega) hranked
          fun heq => hr (congrArg some heq)
      subst hsupersedes
      exact .inr ⟨⟨hhigher, p, h.history, hranked⟩, houtcome⟩
    · refine .inl ⟨fun d hd => ?_, fun p hp => ?_⟩
      · exact (compare_of_reaches hlineage hreaches d).mp fun hc => hconflict ⟨d, hd, hc⟩
      · obtain ⟨l, hl, hpv, -, -, hpSequence, hpDigest⟩ := heldHistory_eq_some hp
        refine extends_of_digestAt hD hpv hv (hheld l hl) hlog ?_
        rw [hpSequence]
        exact (compare_of_reaches hlineage hreaches _).mp fun hc => hconflict ⟨_, hpDigest, hc⟩

/-- The steps a party takes, each of them allowed. -/
inductive PartyRun (allowed : PinnedHistory → PartyEvent → Prop) :
    PinnedHistory → PinnedHistory → Prop where
  | refl (held : PinnedHistory) : PartyRun allowed held held
  | step {held mid after : PinnedHistory} {e : PartyEvent}
      {admitted : Option (IdentityLog × IdentityLogAdmission)} : PartyRun allowed held mid →
      allowed mid e → mid.next e = .ok (after, admitted) → PartyRun allowed held after

/-- The documents of the log that an event offers lie in a set. -/
def PartyEvent.Within (D : Set Document) : PartyEvent → Prop
  | .offer log _ _ | .push log _ _ => log.Within D
  | .operate .. | .refuse .. => True

/-- A resolution vouches for a head of a history that contains the pinned head. -/
def PartyEvent.Continues (D : Set Document) (held : PinnedHistory) : PartyEvent → Prop
  | .operate operation _ _ _ _ =>
    ∀ d ∈ held.pin.minimumDigest, ∃ log v, verifyIdentityLog log false = .ok v ∧ log.Within D ∧
      v.digestAt held.pin.minimumSequence = some d ∧
      v.digestAt operation.resolution.body.head.sequence =
        some operation.resolution.body.headDigest
  | _ => True

def PinnedHistory.Within (D : Set Document) (held : PinnedHistory) : Prop :=
  ∀ l ∈ held.log, l.Within D

omit [Crypto] in
theorem store_log {held : PinnedHistory} {log l : IdentityLog} {keep : Keep}
    {a : IdentityLogAdmission} (h : l ∈ (held.store log keep a).log) : l = log ∨ l ∈ held.log := by
  cases keep with
  | offered => exact .inl (Option.some.inj h).symm
  | held => exact .inr h
  | neither => exact nomatch h

theorem within_step {held after : PinnedHistory} {e : PartyEvent}
    {admitted : Option (IdentityLog × IdentityLogAdmission)} (hheld : held.Within D)
    (he : e.Within D) (h : Step held e after admitted) : after.Within D := by
  cases h with
  | offered _ =>
    intro l hl
    rcases store_log hl with rfl | hl
    · exact he
    · exact hheld l hl
  | pushed _ _ =>
    intro l hl
    rcases store_log hl with rfl | hl
    · exact he
    · exact hheld l hl
  | @operated _ _ _ _ keep _ =>
    intro l hl
    cases keep with
    | true => exact hheld l hl
    | false => exact nomatch hl
  | unmoved => exact hheld

theorem PartyRun.within {allowed : PinnedHistory → PartyEvent → Prop}
    (hallowed : ∀ p e, allowed p e → e.Within D) {start held : PinnedHistory}
    (hstart : start.Within D) (h : PartyRun allowed start held) : held.Within D := by
  induction h with
  | refl => exact hstart
  | step _ ha hnext ih => exact within_step ih (hallowed _ _ ha) (PinnedHistory.step_of_next hnext)

/-- The judgement behind an admission, whichever way the log came. -/
theorem judged_of_step {held after : PinnedHistory} {e : PartyEvent} {log : IdentityLog}
    {a : IdentityLogAdmission} (he : e.Within D) (h : Step held e after (some (log, a))) :
    log.Within D ∧ after.pin = a.pin ∧ ∃ require v pinned, Judged held log require v pinned a := by
  cases h with
  | offered judged => exact ⟨he, rfl, _, _, _, judged⟩
  | pushed _ judged => exact ⟨he, rfl, _, _, _, judged⟩

theorem before_step (hD : D.InjOn Crypto.digest) {held after : PinnedHistory} {e : PartyEvent}
    {admitted : Option (IdentityLog × IdentityLogAdmission)} (hheld : held.Within D)
    (he : e.Within D) (h : Step held e after admitted) : held.pin.before after.pin := by
  cases h with
  | offered judged => exact (judged.sound hD he hheld).forward
  | pushed _ judged => exact (judged.sound hD he hheld).forward
  | operated reaches => exact .inr ⟨rfl, reaches⟩
  | unmoved => exact held.pin.before_refl

theorem PartyRun.before (hD : D.InjOn Crypto.digest)
    {allowed : PinnedHistory → PartyEvent → Prop} (hallowed : ∀ p e, allowed p e → e.Within D)
    {start held : PinnedHistory} (hstart : start.Within D) (h : PartyRun allowed start held) :
    start.pin.before held.pin := by
  induction h with
  | refl => exact start.pin.before_refl
  | step hrun ha hnext ih =>
    exact ResolverPin.before_trans ih (before_step hD (hrun.within hallowed hstart)
      (hallowed _ _ ha) (PinnedHistory.step_of_next hnext))

/-- While the party stays at the epoch of an admitted history, every history that contains the
pinned head extends that one. -/
structure Covers (D : Set Document) (u : VerifiedIdentityLog) (pin : ResolverPin) : Prop where
  epoch : u.resolver.epoch ≤ pin.resolverEpoch
  covers : pin.resolverEpoch = u.resolver.epoch → ∃ d, pin.minimumDigest = some d ∧
    ∀ log v, verifyIdentityLog log false = .ok v → log.Within D →
      v.digestAt pin.minimumSequence = some d → Extends v u

theorem covers_pin (hD : D.InjOn Crypto.digest) {log : IdentityLog} {u : VerifiedIdentityLog}
    (hu : verifyIdentityLog log false = .ok u) (hlog : log.Within D) : Covers D u u.pin where
  epoch := le_refl _
  covers := fun _ => ⟨u.headDigest, rfl, fun _ _ hv hlog' hat =>
    extends_of_digestAt hD hu hv hlog hlog' hat⟩

/-- A log admitted at the epoch of a covered history extends it. -/
theorem Covers.extends {u v : VerifiedIdentityLog} {held : PinnedHistory} {log : IdentityLog}
    {a : IdentityLogAdmission} (h : Covers D u held.pin) (hv : verifyIdentityLog log false = .ok v)
    (hlog : log.Within D) (hsound : AdmissionSound held log v a)
    (hepoch : v.resolver.epoch = u.resolver.epoch) : Extends v u := by
  have hforward : held.pin.resolverEpoch ≤ v.resolver.epoch := by
    have hbefore := hsound.forward
    rw [hsound.stored] at hbefore
    have hpin : v.pin.resolverEpoch = v.resolver.epoch := rfl
    unfold ResolverPin.before at hbefore
    omega
  have hsame : held.pin.resolverEpoch = u.resolver.epoch := by
    have hlow := h.epoch
    omega
  obtain ⟨d, hd, hcovers⟩ := h.covers hsame
  rcases hsound.continues with ⟨hcontinues, -⟩ | ⟨⟨hhigher, -⟩, -⟩
  · exact hcovers log v hv hlog (hcontinues d hd)
  · omega

theorem Covers.admit (hD : D.InjOn Crypto.digest) {u v : VerifiedIdentityLog}
    {held : PinnedHistory} {log : IdentityLog} {a : IdentityLogAdmission}
    (h : Covers D u held.pin) (hv : verifyIdentityLog log false = .ok v) (hlog : log.Within D)
    (hsound : AdmissionSound held log v a) : Covers D u a.pin := by
  have hbefore := hsound.forward
  rw [hsound.stored] at hbefore ⊢
  have hpin : v.pin.resolverEpoch = v.resolver.epoch := rfl
  have hlow := h.epoch
  refine ⟨?_, fun hepoch => ⟨v.headDigest, rfl, fun log' w hw hlog' hat => ?_⟩⟩
  · unfold ResolverPin.before at hbefore
    omega
  · have hvu := h.extends hv hlog hsound hepoch
    exact hvu.trans (extends_of_digestAt hD hv hw hlog hlog' hat)

theorem Covers.step (hD : D.InjOn Crypto.digest) {u : VerifiedIdentityLog}
    {held after : PinnedHistory} {e : PartyEvent}
    {admitted : Option (IdentityLog × IdentityLogAdmission)} (h : Covers D u held.pin)
    (hheld : held.Within D) (he : e.Within D) (hcontinues : e.Continues D held)
    (hstep : Step held e after admitted) : Covers D u after.pin := by
  cases hstep with
  | offered judged =>
    exact h.admit hD (verify_lenient judged.verified) he (judged.sound hD he hheld)
  | pushed _ judged =>
    exact h.admit hD (verify_lenient judged.verified) he (judged.sound hD he hheld)
  | @operated operation _ _ _ _ reaches =>
    refine ⟨h.epoch, fun hepoch => ⟨operation.resolution.body.headDigest, rfl, ?_⟩⟩
    obtain ⟨d, hd, hcovers⟩ := h.covers hepoch
    obtain ⟨log, w, hw, hlog, hpinned, hresolved⟩ := hcontinues d hd
    intro log' v hv hlog' hat
    exact hcovers log' v hv hlog' (digestAt_below hD hw hv hlog hlog' hresolved hat reaches hpinned)
  | unmoved => exact h

theorem Covers.run (hD : D.InjOn Crypto.digest) {u : VerifiedIdentityLog}
    {start held : PinnedHistory} (hstart : start.Within D) (h : Covers D u start.pin)
    (hrun : PartyRun (fun p e => e.Within D ∧ e.Continues D p) start held) :
    Covers D u held.pin := by
  induction hrun with
  | refl => exact h
  | step hrun ha hnext ih =>
    exact ih.step hD (hrun.within (fun _ _ h => h.1) hstart) ha.1 ha.2
      (PinnedHistory.step_of_next hnext)

theorem checkPin_of_verified {log : IdentityLog} {v : VerifiedIdentityLog}
    (hv : verifyIdentityLog log false = .ok v) : checkPin v.pin = .ok () := by
  have hlineage := lineage_of_verified hv
  obtain ⟨hlength, -⟩ := (verifyIdentityLog_eq_ok log false v).mp hv
  have hmax : maxLogEntries = 4096 := rfl
  have hsafe : maxSafeInteger = 9007199254740991 := rfl
  have hsequence := hlineage.sequence
  have hcount := hlineage.length
  have hepoch := hlineage.bounded
  have hpinEpoch : v.pin.resolverEpoch = v.resolver.epoch := rfl
  have hpinSequence : v.pin.minimumSequence = v.state.head.sequence := rfl
  rw [checkPin, demand_eq_ok]
  omega

/-- A history that the party holds for its pin does not conflict with the log of that pin. -/
theorem ranking_of_pinned (hD : D.InjOn Crypto.digest) {log : IdentityLog}
    {v : VerifiedIdentityLog} (hv : verifyIdentityLog log false = .ok v) (hlog : log.Within D)
    {held : PinnedHistory} (hpin : held.pin = v.pin) (hheld : held.Within D)
    {pinned : Option VerifiedIdentityLog} (hhistory : heldHistory held.pin held.log = .ok pinned)
    (hgenesis : ∀ p ∈ pinned, p.genesisDigest = v.genesisDigest) :
    ∃ r, ranking v pinned = .ok r ∧ r ≠ some .conflict := by
  cases pinned with
  | none => exact ⟨none, rfl, nofun⟩
  | some p =>
    obtain ⟨l, hl, hp, hid, -, hsequence, hdigest⟩ := heldHistory_eq_some hhistory
    rw [hpin] at hid hsequence hdigest
    have hlast := digestAt_last (lineage_of_verified hv)
    have hheadDigest : v.headDigest = p.headDigest := Option.some.inj hdigest
    have hagree : ∀ (n : ℕ) x y, v.heads[n]? = some x → p.heads[n]? = some y →
        x.headDigest = y.headDigest := by
      intro n x y hx hy
      have hpLast := digestAt_last (lineage_of_verified hp)
      have hpHead : p.head.sequence = v.head.sequence := hsequence
      rw [hpHead, ← hheadDigest] at hpLast
      have hbound : n ≤ v.head.sequence := by
        have hlt := (List.getElem?_eq_some_iff.mp hx).1
        have hcount := (lineage_of_verified hv).sequence
        show n ≤ v.state.head.sequence
        omega
      have hy' : p.digestAt n = some y.headDigest := digestAt_eq_some.mpr ⟨y, hy, rfl⟩
      have hx' := digestAt_below hD hp hv (hheld l hl) hlog hpLast hlast hbound hy'
      obtain ⟨z, hz, hzy⟩ := digestAt_eq_some.mp hx'
      obtain rfl : x = z := Option.some.inj (hx.symm.trans hz)
      exact hzy
    obtain ⟨r, hr, hne⟩ := ranked_of_agree hid.symm (hgenesis p rfl).symm hagree
    refine ⟨some r, (map_eq_ok _ _ _).mpr ⟨r, hr, rfl⟩, ?_⟩
    exact fun heq => hne (Option.some.inj heq)

/-- The log of the pin is admitted without a change. -/
theorem judge_unchanged {log : IdentityLog} {v : VerifiedIdentityLog} (hv : Lineage log v)
    {pinned : Option VerifiedIdentityLog}
    (hranked : ∃ r, ranking v pinned = .ok r ∧ r ≠ some .conflict) :
    judgeVerified v.pin v pinned false = .ok (.admission ⟨.unchanged, v.pin, none⟩) := by
  obtain ⟨r, hr, hne⟩ := hranked
  have hid : ¬v.identityId ≠ v.pin.identityId := not_not.mpr rfl
  have hfind : (v.resolvers.find? fun r => r.epoch = v.pin.resolverEpoch) = some v.resolver :=
    hv.find_resolver
  have hadopted : unadopted v.pin.resolverEpoch v.heads = false := unadopted_of_le hv.below
  have hconsistent : compareCheckpoint v v.pin.minimumSequence v.headDigest = .consistent :=
    hv.compare_last
  have hcheckpoint : judgeCheckpoint v.pin v pinned.isSome =
      .admission ⟨.unchanged, v.pin, none⟩ := by
    have hdigest : v.pin.minimumDigest = some v.headDigest := rfl
    have hsame : v.head.sequence = v.pin.minimumSequence ∧
        v.resolver.epoch = v.pin.resolverEpoch := ⟨rfl, rfl⟩
    unfold judgeCheckpoint
    rw [hdigest]
    dsimp only
    rw [hconsistent, if_pos (by decide), if_pos hsame]
  have hlineage : judgeLineage v.pin v pinned.isSome = .admission ⟨.unchanged, v.pin, none⟩ := by
    unfold judgeLineage
    rw [hfind]
    have hbinding : ¬(v.resolver.id ≠ v.pin.resolverId ∨ v.resolver.keyId ≠ v.pin.resolverKey) := by
      rintro (h | h) <;> exact h rfl
    have hreaches : ¬v.head.sequence < v.pin.minimumSequence := Nat.lt_irrefl _
    dsimp only
    rw [if_neg hbinding, if_neg hreaches, hadopted, if_neg Bool.false_ne_true, hcheckpoint]
  unfold judgeVerified
  rw [if_neg hid, if_neg Bool.false_ne_true, hr, ok_bind, if_neg hne, hlineage]
  rfl

/-- An event that admitted a log admits it again without a change. -/
theorem admits_again (hD : D.InjOn Crypto.digest) {held after later : PinnedHistory}
    {e : PartyEvent} {log : IdentityLog} {v : VerifiedIdentityLog} {a : IdentityLogAdmission}
    (hstep : Step held e after (some (log, a))) (he : e.Within D)
    (hv : verifyIdentityLog log false = .ok v) (hpin : later.pin = v.pin)
    (hlater : later.Within D) (hunrefused : refusedMove log later.refusals = .ok false)
    {pinned : Option VerifiedIdentityLog} (hhistory : heldHistory later.pin later.log = .ok pinned)
    (hgenesis : ∀ p ∈ pinned, p.genesisDigest = v.genesisDigest) :
    ∃ x, later.next e = .ok (x, some (log, ⟨.unchanged, v.pin, none⟩)) ∧ x.pin = v.pin := by
  obtain ⟨hlog, -, -⟩ := judged_of_step he hstep
  have hranked := ranking_of_pinned hD hv hlog hpin hlater hhistory hgenesis
  have hjudge := judge_unchanged (lineage_of_verified hv) hranked
  rw [← hpin] at hjudge
  have hcheck : checkPin later.pin = .ok () := by
    rw [hpin]
    exact checkPin_of_verified hv
  have hsame : ∀ {require w}, verifyIdentityLog log require = .ok w → w = v := fun hw =>
    Except.ok.inj ((verify_lenient hw).symm.trans hv)
  rw [← hpin]
  cases hstep with
  | @offered _ require keep w _ _ judged =>
    obtain rfl := hsame judged.verified
    refine ⟨later.store log keep ⟨.unchanged, later.pin, none⟩, ?_, rfl⟩
    have hoffer : judgeIdentityLog later.pin log require later.log later.refusals =
        .ok (.admission ⟨.unchanged, later.pin, none⟩) := by
      simp only [judgeIdentityLog, hcheck, ok_bind, hhistory, judged.verified, hunrefused, hjudge]
    simp only [PinnedHistory.next, hoffer]
    rfl
  | @pushed _ require keep w _ _ copied judged =>
    obtain rfl := hsame judged.verified
    refine ⟨later.store log keep ⟨.unchanged, later.pin, none⟩, ?_, rfl⟩
    have hid : w.identityId = later.pin.identityId := by rw [hpin]; rfl
    have hpush : receiveIdentityLogPush log later.lookup require =
        .ok (.admission ⟨.unchanged, later.pin, none⟩) := by
      simp only [receiveIdentityLogPush, copied, ok_bind, judged.verified, PinnedHistory.lookup,
        hid, if_true, hcheck, hhistory, hunrefused, hjudge]
    simp only [PinnedHistory.next, hpush]
    rfl

/-- Over every run the pin never falls back, and each admission is sound against the pin before
it. What is admitted later at the same epoch extends it, as long as every resolution in between
vouches for a history that contains the pinned head. Offered again, to the party as it pins
that log and holds no refusal that the log does not escape, it is admitted without a change. -/
theorem relying_party_steadfast (hD : D.InjOn Crypto.digest) {start held : PinnedHistory}
    (hstart : start.Within D) (hrun : PartyRun (fun _ e => e.Within D) start held) :
    start.pin.before held.pin ∧
      ∀ e log a after, e.Within D → held.next e = .ok (after, some (log, a)) →
        ∃ v, verifyIdentityLog log false = .ok v ∧ after.pin = v.pin ∧
          AdmissionSound held log v a ∧
          (∀ later e' log' a' after' w,
            PartyRun (fun p e => e.Within D ∧ e.Continues D p) after later → e'.Within D →
            later.next e' = .ok (after', some (log', a')) →
            verifyIdentityLog log' false = .ok w → w.resolver.epoch = v.resolver.epoch →
            Extends w v) ∧
          ∀ (later : PinnedHistory) pinned, later.pin = after.pin → later.Within D →
            refusedMove log later.refusals = .ok false →
            heldHistory later.pin later.log = .ok pinned →
            (∀ p ∈ pinned, p.genesisDigest = v.genesisDigest) →
            ∃ x, later.next e = .ok (x, some (log, ⟨.unchanged, after.pin, none⟩)) ∧
              x.pin = after.pin := by
  have hheld : held.Within D := hrun.within (fun _ _ h => h) hstart
  refine ⟨hrun.before hD (fun _ _ h => h) hstart, ?_⟩
  intro e log a after he hnext
  have hstep := PinnedHistory.step_of_next hnext
  have hafter : after.Within D := within_step hheld he hstep
  obtain ⟨hlog, hstored, require, v, pinned, hjudged⟩ := judged_of_step he hstep
  have hv := verify_lenient hjudged.verified
  have hsound := hjudged.sound hD hlog hheld
  have hpin : after.pin = v.pin := hstored.trans hsound.stored
  refine ⟨v, hv, hpin, hsound, ?_, ?_⟩
  · intro later e' log' a' after' w hlater he' hnext' hw hepoch
    have hcovers : Covers D v after.pin := by
      rw [hpin]
      exact covers_pin hD hv hlog
    have hlaterWithin : later.Within D := hlater.within (fun _ _ h => h.1) hafter
    obtain ⟨hlog', -, require', x, pinned', hjudged'⟩ :=
      judged_of_step he' (PinnedHistory.step_of_next hnext')
    obtain rfl : x = w := Except.ok.inj ((verify_lenient hjudged'.verified).symm.trans hw)
    exact (hcovers.run hD hafter hlater).extends hw hlog' (hjudged'.sound hD hlog' hlaterWithin)
      hepoch
  · intro later pinned' hlaterPin hlater hunrefused hhistory hgenesis
    rw [hpin]
    exact admits_again hD hstep he hv (hlaterPin.trans hpin) hlater hunrefused hhistory hgenesis

end

section
variable [Crypto]

def enrolledSample : Checked Course :=
  Course.enroll sampleGenesis (sampleEnrollment 1000000) 5 9 "https://resolver.example" 1000000

/-- A party that enrolled the identity at its first head. -/
def partyAt (s : IdentityState) : PinnedHistory :=
  ⟨⟨s.head.identityId, s.resolverId, s.resolverKey, s.resolverEpoch, s.head.sequence,
    some s.headDigest⟩, none, []⟩

/-- The log of a move to resolver 8, attested by its key 19. -/
def movedSample : Checked (PinnedHistory × IdentityLog × Signed Rehome) := do
  let enrolled ← enrolledSample
  let move := sampleRehome enrolled.state 1100000
  let moved ← enrolled.next (.rehome move 1100000)
  let s := moved.state
  let attestation := attestHead s.head (bindingOf s "https://next.example") 19
  pure (partyAt enrolled.state,
    enrolled.log.push ⟨s.head.effectiveAt, none, some (some move), some attestation⟩, move)

/-- The admission of the move by a party that keeps the log. -/
def movedAdmission : Checked (PinnedHistory × PinnedHistory × IdentityLog × IdentityLogAdmission ×
    VerifiedIdentityLog × Option VerifiedIdentityLog) := do
  let (party, log, _) ← movedSample
  let v ← verifyIdentityLog log false
  let (after, admitted) ← party.next (.offer log false .offered)
  let (_, a) ← require "not admitted" admitted
  let pinned ← heldHistory after.pin after.log
  pure (party, after, log, a, v, pinned)

/-- The admission of the move, the refusal that its destination signs afterwards, and the
same log again. -/
def refusedAfterwards : Checked (Bool × Bool × Bool) := do
  let (party, log, move) ← movedSample
  let refusal ← refuseRehome move 19 1200000
  let (after, admitted) ← party.next (.offer log false .neither)
  let (later, _) ← after.next (.refuse refusal log)
  let again ← later.next (.offer log false .neither)
  pure (admitted.isSome, later.pin = after.pin, again = (later, none))

/-- Two rotations of the first head, and a resolution for the longer of the two branches. -/
def forkedSample : Checked (PinnedHistory × IdentityLog × IdentityLog × PersonOperation) := do
  let enrolled ← enrolledSample
  let left ← enrolled.next (.transition (sampleRotation enrolled.state 3 1100000) 1100000)
  let right ← enrolled.next (.transition (sampleRotation enrolled.state 4 1200000) 1200000)
  let right ← right.next (.transition (sampleRotation right.state 6 1300000) 1300000)
  let s := right.state
  let resolution : Resolution :=
    { identityId := s.head.identityId, audience := "https://party.example", challenge := 0
      resolverId := s.resolverId, resolverEpoch := s.resolverEpoch, head := s.head
      headDigest := s.headDigest, issuedAt := 1400000, expiresAt := 1430000 }
  let proof := sampleSign .resolution resolution [9]
  let operation : PersonOperation :=
    ⟨proof, 0, [⟨6, Crypto.signBytes 6 (.operation 0 proof)⟩]⟩
  let right ← right.next (.transition (sampleRotation right.state 7 1500000) 1500000)
  pure (partyAt enrolled.state, left.log, right.log, operation)

/-- The left branch is admitted, the resolver vouches for the right one, and then the right
branch is admitted at the same epoch. -/
def forkedAdmissions : Checked (Bool × Bool × Bool × Bool) := do
  let (party, left, right, operation) ← forkedSample
  let u ← verifyIdentityLog left false
  let v ← verifyIdentityLog right false
  let (after, first) ← party.next (.offer left false .neither)
  let (later, _) ← after.next (.operate operation "https://party.example" 0 1400000 false)
  let (_, second) ← later.next (.offer right false .neither)
  pure (first.isSome, second.isSome, u.resolver.epoch = v.resolver.epoch,
    u.digestAt 1 = v.digestAt 1)

omit [Crypto] in
theorem not_extends {u v : VerifiedIdentityLog} {n : ℕ} (hu : u.digestAt n ≠ none)
    (hv : v.digestAt n ≠ none) (h : u.digestAt n ≠ v.digestAt n) : ¬Extends v u := by
  intro hextends
  obtain ⟨c, hc⟩ := Option.ne_none_iff_exists'.mp hu
  obtain ⟨d, hd⟩ := Option.ne_none_iff_exists'.mp hv
  obtain ⟨x, hx, rfl⟩ := digestAt_eq_some.mp hc
  obtain ⟨y, hy, rfl⟩ := digestAt_eq_some.mp hd
  have heq := HashChain.getElem?_of_prefix hextends hx hy
  rw [hc, hd, heq] at h
  exact h rfl

end

/-- A move that its destination attested is admitted, and admitted again without a change. -/
theorem relying_party_sample :
    letI := sampleCrypto
    ∃ (held after x : PinnedHistory) (log : IdentityLog) (a : IdentityLogAdmission),
      held.next (.offer log false .offered) = .ok (after, some (log, a)) ∧
        held.pin.resolverEpoch < after.pin.resolverEpoch ∧
        after.next (.offer log false .offered) =
          .ok (x, some (log, ⟨.unchanged, after.pin, none⟩)) := by
  let := sampleCrypto
  have hrun : (do
      let (held, after, log, a, v, pinned) ← movedAdmission
      let docs := documents log v
      pure (decide (held.next (.offer log false .offered) = .ok (after, some (log, a))),
        decide (∀ d ∈ docs, ∀ d' ∈ docs, Crypto.digest d = Crypto.digest d' → d = d'),
        decide (held.log = none ∧ after.refusals = [] ∧
          held.pin.resolverEpoch < after.pin.resolverEpoch),
        pinned.all fun p => p.genesisDigest = v.genesisDigest) :
      Checked (Bool × Bool × Bool × Bool)) = .ok (true, true, true, true) := by decide
  simp only [bind_eq_ok, pure_eq_ok] at hrun
  obtain ⟨⟨held, after, log, a, v, pinned⟩, hsample, h⟩ := hrun
  simp only [Prod.mk.injEq, decide_eq_true_eq] at h
  obtain ⟨hadmission, hdistinct, ⟨hnone, hclear, hepoch⟩, hgenesis⟩ := h
  simp only [movedAdmission, bind_eq_ok, pure_eq_ok] at hsample
  obtain ⟨⟨party, log', move⟩, -, v', hv, ⟨after', admitted⟩, -, _, -, pinned', hhistory, heq⟩ :=
    hsample
  simp only [Prod.mk.injEq] at heq
  obtain ⟨rfl, rfl, rfl, rfl, rfl, rfl⟩ := heq
  let D : Set Document := {d | d ∈ documents log' v'}
  have hD : D.InjOn Crypto.digest := fun d hd d' hd' heq => hdistinct d hd d' hd' heq
  have hlog : log'.Within D := by
    intro w hw d hd
    obtain rfl := Except.ok.inj (hw.symm.trans hv)
    exact hd
  have hheld : party.Within D := by
    intro l hl
    rw [hnone] at hl
    cases hl
  have hoffer : (PartyEvent.offer log' false .offered).Within D := hlog
  have hafter := within_step hheld hoffer (PinnedHistory.step_of_next hadmission)
  obtain ⟨-, hsound⟩ := relying_party_steadfast hD hheld (.refl party)
  obtain ⟨w, hw, -, -, -, hagain⟩ := hsound _ log' _ after' hoffer hadmission
  obtain rfl := Except.ok.inj (hw.symm.trans hv)
  have hclean : refusedMove log' after'.refusals = .ok false := by
    rw [hclear]
    rfl
  have hsame : ∀ p ∈ pinned', p.genesisDigest = w.genesisDigest := by
    rintro p rfl
    simpa using hgenesis
  obtain ⟨x, hx, -⟩ := hagain after' pinned' rfl hafter hclean hhistory hsame
  exact ⟨party, after', x, log', _, hadmission, hepoch, hx⟩

/-- A log that was admitted is refused once its destination's refusal has arrived, though the
pin has not moved. After a resolution for another branch, that branch is admitted at the
epoch of the one admitted before. -/
theorem pin_refuses_and_forks :
    letI := sampleCrypto
    (∃ (held : PinnedHistory) (e : PartyEvent) (log : IdentityLog) (a : IdentityLogAdmission)
      (after later : PinnedHistory), held.next e = .ok (after, some (log, a)) ∧
        PartyRun (fun _ _ => True) after later ∧ later.pin = after.pin ∧
        later.next e = .ok (later, none)) ∧
      ∃ (held : PinnedHistory) (e e' : PartyEvent) (log log' : IdentityLog)
        (a a' : IdentityLogAdmission) (after later last : PinnedHistory)
        (u v : VerifiedIdentityLog), held.next e = .ok (after, some (log, a)) ∧
        PartyRun (fun _ _ => True) after later ∧ later.next e' = .ok (last, some (log', a')) ∧
        verifyIdentityLog log false = .ok u ∧ verifyIdentityLog log' false = .ok v ∧
        u.resolver.epoch = v.resolver.epoch ∧ ¬Extends v u ∧ ¬Extends u v := by
  let := sampleCrypto
  constructor
  · have hrun : refusedAfterwards = .ok (true, true, true) := by decide
    simp only [refusedAfterwards, bind_eq_ok, pure_eq_ok] at hrun
    obtain ⟨⟨party, log, move⟩, -, refusal, -, ⟨after, admitted⟩, hadmission, ⟨later, x⟩, hrefuse,
      again, hagain, h⟩ := hrun
    simp only [Prod.mk.injEq, decide_eq_true_eq] at h hadmission hrefuse hagain
    obtain ⟨hsome, hpin, rfl⟩ := h
    obtain ⟨⟨log', a⟩, rfl⟩ := Option.isSome_iff_exists.mp hsome
    obtain rfl : log' = log := by
      cases PinnedHistory.step_of_next hadmission with
      | offered judged => rfl
    exact ⟨party, _, log', a, after, later, hadmission, .step (.refl after) trivial hrefuse, hpin,
      hagain⟩
  · have hrun : forkedAdmissions = .ok (true, true, true, false) ∧
        (do
          let (_, left, right, _) ← forkedSample
          let u ← verifyIdentityLog left false
          let v ← verifyIdentityLog right false
          pure ((u.digestAt 1).isSome, (v.digestAt 1).isSome) : Checked (Bool × Bool)) =
          .ok (true, true) := by decide
    obtain ⟨hforked, hdigests⟩ := hrun
    simp only [forkedAdmissions, bind_eq_ok, pure_eq_ok] at hforked hdigests
    obtain ⟨⟨party, left, right, operation⟩, hsample, u, hu, v, hv, ⟨after, first⟩, hfirst,
      ⟨later, x⟩, hoperate, ⟨last, second⟩, hsecond, h⟩ := hforked
    obtain ⟨⟨party', left', right', operation'⟩, hsample', u', hu', v', hv', hpresent⟩ := hdigests
    rw [hsample] at hsample'
    simp only [Except.ok.injEq, Prod.mk.injEq] at hsample'
    obtain ⟨rfl, rfl, rfl, rfl⟩ := hsample'
    dsimp only at hu hv hu' hv' hfirst hoperate hsecond h
    obtain rfl := Except.ok.inj (hu.symm.trans hu')
    obtain rfl := Except.ok.inj (hv.symm.trans hv')
    simp only [Prod.mk.injEq, decide_eq_true_eq, decide_eq_false_iff_not] at h hpresent
    obtain ⟨hfirstSome, hsecondSome, hepoch, hdiffer⟩ := h
    obtain ⟨⟨log, a⟩, rfl⟩ := Option.isSome_iff_exists.mp hfirstSome
    obtain ⟨⟨log', a'⟩, rfl⟩ := Option.isSome_iff_exists.mp hsecondSome
    obtain rfl : log = left := by
      cases PinnedHistory.step_of_next hfirst with
      | offered judged => rfl
    obtain rfl : log' = right := by
      cases PinnedHistory.step_of_next hsecond with
      | offered judged => rfl
    have hnone := Option.isSome_iff_ne_none.mp hpresent.1
    have hnone' := Option.isSome_iff_ne_none.mp hpresent.2
    exact ⟨party, _, _, log, log', a, a', after, later, last, u, v, hfirst,
      .step (.refl after) trivial hoperate, hsecond, hu, hv, hepoch,
      not_extends hnone hnone' hdiffer, not_extends hnone' hnone (Ne.symm hdiffer)⟩

end DirectTrade.Foundation
