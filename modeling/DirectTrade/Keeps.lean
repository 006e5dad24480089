import DirectTrade.Chains

/-!
What no command takes back. Companies keep their identity and generation and never return
from a move, issued migration tokens stay, stages end once, stock entries keep their parts,
and cached attestations only advance.
-/

namespace DirectTrade

open Library

/-- A later form of a company at the same host. -/
structure Organization.Continues (o o' : Organization) : Prop where
  id : o'.id = o.id
  name : o'.name = o.name
  generation : o'.generation = o.generation
  moved : o.status = .migrated → o'.status = .migrated
  history : o.history <+: o'.history

theorem Organization.Continues.refl (o : Organization) : o.Continues o :=
  ⟨rfl, rfl, rfl, fun h => h, List.prefix_refl _⟩

theorem Organization.Continues.trans {a b c : Organization} (h : a.Continues b)
    (h' : b.Continues c) : a.Continues c :=
  ⟨h'.id.trans h.id, h'.name.trans h.name, h'.generation.trans h.generation,
    h'.moved ∘ h.moved, h.history.trans h'.history⟩

/-- A later form of an outgoing migration: its tokens stay once they are issued. -/
structure OutboundMigration.Continues (m m' : OutboundMigration) : Prop where
  manifest : m'.manifest = m.manifest
  chunks : m'.chunks = m.chunks
  manifestToken : m'.manifestToken = m.manifestToken
  authorization : m'.authorization = m.authorization
  commit : ∀ t, m.commitToken = some t → m'.commitToken = some t
  cancel : ∀ t, m.cancelToken = some t → m'.cancelToken = some t

theorem OutboundMigration.Continues.refl (m : OutboundMigration) : m.Continues m :=
  ⟨rfl, rfl, rfl, rfl, fun _ h => h, fun _ h => h⟩

theorem OutboundMigration.Continues.trans {a b c : OutboundMigration} (h : a.Continues b)
    (h' : b.Continues c) : a.Continues c :=
  ⟨h'.manifest.trans h.manifest, h'.chunks.trans h.chunks,
    h'.manifestToken.trans h.manifestToken, h'.authorization.trans h.authorization,
    fun t ht => h'.commit t (h.commit t ht), fun t ht => h'.cancel t (h.cancel t ht)⟩

/-- A stage as an abort leaves it. -/
def InboundMigration.stopped (stage : InboundMigration) : InboundMigration :=
  { stage with aborted := true, chunks := ∅, snapshot := none, readyToken := none }

/-- A later form of a stage: an activated or stopped stage never changes, and a pending
one keeps its chunks and its readiness. -/
structure InboundMigration.Continues (a b : InboundMigration) : Prop where
  manifest : b.manifest = a.manifest
  manifestToken : b.manifestToken = a.manifestToken
  activated : a.activated = true → b = a
  aborts : a.aborted = true → b.aborted = true
  aborted : a.stopped = a → b = a
  chunks : b.pending = true → ∀ (i : ℕ) (d : String),
    a.chunks[i]? = some d → b.chunks[i]? = some d
  ready : b.pending = true → ∀ t, a.readyToken = some t →
    b.readyToken = some t ∧ b.snapshot = a.snapshot

theorem InboundMigration.Continues.refl (a : InboundMigration) : a.Continues a :=
  ⟨rfl, rfl, fun _ => rfl, id, fun _ => rfl, fun _ _ _ h => h, fun _ _ h => ⟨h, rfl⟩⟩

theorem InboundMigration.Continues.pending {a b : InboundMigration} (h : a.Continues b)
    (hb : b.pending = true) : a.pending = true := by
  simp only [InboundMigration.pending, Bool.and_eq_true, Bool.not_eq_true'] at hb ⊢
  constructor
  · by_contra hact
    rw [h.activated (by simpa using hact)] at hb
    exact hact hb.1
  · by_contra habort
    have := h.aborts (by simpa using habort)
    simp [this] at hb

theorem InboundMigration.Continues.trans {a b c : InboundMigration} (h : a.Continues b)
    (h' : b.Continues c) : a.Continues c where
  manifest := h'.manifest.trans h.manifest
  manifestToken := h'.manifestToken.trans h.manifestToken
  activated ha := by
    have hb := h.activated ha
    exact (h'.activated (hb ▸ ha)).trans hb
  aborts ha := h'.aborts (h.aborts ha)
  aborted ha := by
    have hb := h.aborted ha
    exact (h'.aborted (hb ▸ ha)).trans hb
  chunks hc i d hd := h'.chunks hc i d (h.chunks (h'.pending hc) i d hd)
  ready hc t ht := by
    obtain ⟨hready, hsnap⟩ := h.ready (h'.pending hc) t ht
    obtain ⟨hready', hsnap'⟩ := h'.ready hc t hready
    exact ⟨hready', hsnap'.trans hsnap⟩

/-- A later form of a company's stock entry. -/
structure Inventory.Continues (a b : Inventory) : Prop where
  index : a.index.isSome = true → b.index.isSome = true
  flow : a.flow.isSome = true → b.flow.isSome = true

theorem Inventory.Continues.refl (a : Inventory) : a.Continues a := ⟨id, id⟩

theorem Inventory.Continues.trans {a b c : Inventory} (h : a.Continues b)
    (h' : b.Continues c) : a.Continues c :=
  ⟨h'.index ∘ h.index, h'.flow ∘ h.flow⟩

variable [Primitives]

/-- The same attestation but for its signature. -/
structure SameAttestation (a b : Signed AuthorityBody) : Prop where
  generation : b.body.generation = a.body.generation
  issuer : b.body.issuer = a.body.issuer
  keyId : b.keyId = a.keyId
  issuedAt : b.body.issuedAt = a.body.issuedAt
  digest : Primitives.digestBody (.authority b.body) = Primitives.digestBody (.authority a.body)

/-- A later attestation of a company: of a later generation, or observed later at the same
host, or the same. -/
inductive RemoteAuthority.Continues (a b : RemoteAuthority) : Prop
  | generation (h : a.token.body.generation < b.token.body.generation)
  | observed (generation : b.token.body.generation = a.token.body.generation)
      (issuer : b.token.body.issuer = a.token.body.issuer)
      (keyId : b.token.keyId = a.token.keyId)
      (issuedAt : a.token.body.issuedAt < b.token.body.issuedAt)
  | same (h : SameAttestation a.token b.token)

theorem RemoteAuthority.Continues.refl (a : RemoteAuthority) : a.Continues a :=
  .same ⟨rfl, rfl, rfl, rfl, rfl⟩

theorem RemoteAuthority.Continues.trans {a b c : RemoteAuthority} (h : a.Continues b)
    (h' : b.Continues c) : a.Continues c := by
  cases h with
  | generation hab =>
    cases h' with
    | generation hbc => exact .generation (hab.trans hbc)
    | observed generation issuer keyId issuedAt => exact .generation (generation ▸ hab)
    | same hbc => exact .generation (hbc.generation ▸ hab)
  | observed generation issuer keyId issuedAt =>
    cases h' with
    | generation hbc => exact .generation (generation ▸ hbc)
    | observed generation' issuer' keyId' issuedAt' =>
      exact .observed (generation'.trans generation) (issuer'.trans issuer)
        (keyId'.trans keyId) (issuedAt.trans issuedAt')
    | same hbc =>
      exact .observed (hbc.generation.trans generation) (hbc.issuer.trans issuer)
        (hbc.keyId.trans keyId) (hbc.issuedAt ▸ issuedAt)
  | same hab =>
    cases h' with
    | generation hbc => exact .generation (hab.generation ▸ hbc)
    | observed generation issuer keyId issuedAt =>
      exact .observed (generation.trans hab.generation) (issuer.trans hab.issuer)
        (keyId.trans hab.keyId) (hab.issuedAt ▸ issuedAt)
    | same hbc =>
      exact .same ⟨hbc.generation.trans hab.generation, hbc.issuer.trans hab.issuer,
        hbc.keyId.trans hab.keyId, hbc.issuedAt.trans hab.issuedAt,
        hbc.digest.trans hab.digest⟩

/-- Every entry of a table has a later form under its key. -/
def Later {α β : Type} [DecidableEq α] (R : β → β → Prop) (d e : Dict α β) : Prop :=
  ∀ k v, d.get? k = some v → ∃ w, e.get? k = some w ∧ R v w

section

variable {α β : Type} [DecidableEq α] {R : β → β → Prop} {d e f : Dict α β}

omit [Primitives] in
theorem Later.refl (hR : ∀ v, R v v) (d : Dict α β) : Later R d d :=
  fun _ v h => ⟨v, h, hR v⟩

omit [Primitives] in
theorem Later.trans (hR : ∀ {u v w}, R u v → R v w → R u w) (h : Later R d e)
    (h' : Later R e f) : Later R d f := by
  intro k u hu
  obtain ⟨v, hv, huv⟩ := h k u hu
  obtain ⟨w, hw, hvw⟩ := h' k v hv
  exact ⟨w, hw, hR huv hvw⟩

omit [Primitives] in
/-- Writing a later form of the entry under a key, or a first entry. -/
theorem Later.set (hR : ∀ v, R v v) (d : Dict α β) {k : α} {w : β}
    (h : ∀ v, d.get? k = some v → R v w) : Later R d (d.set k w) := by
  intro a v hv
  rw [Dict.get?_set]
  split
  · rename_i hak
    subst a
    exact ⟨w, rfl, h v hv⟩
  · exact ⟨v, hv, hR v⟩

omit [Primitives] in
theorem Later.replace (hR : ∀ v, R v v) {k : α} {v w : β} (hv : d.get? k = some v)
    (h : R v w) : Later R d (d.set k w) :=
  Later.set hR d fun _ hu => (Option.some.inj (hv.symm.trans hu)) ▸ h

omit [Primitives] in
theorem Later.add (hR : ∀ v, R v v) {k : α} {w : β} (hk : d.get? k = none) :
    Later R d (d.set k w) :=
  Later.set hR d fun _ hu => by simp [hk] at hu

end

structure Keeps (s t : State) : Prop where
  organizations : Later Organization.Continues s.organizations t.organizations
  outgoing : Later OutboundMigration.Continues s.outgoing t.outgoing
  incoming : Later InboundMigration.Continues s.incoming t.incoming
  inventory : ∀ id a, (s.organizations.get? id).isSome = true → s.inventory.get? id = some a →
    ∃ b, t.inventory.get? id = some b ∧ a.Continues b
  remoteAuthorities :
    Later RemoteAuthority.Continues s.remoteAuthorities t.remoteAuthorities

theorem Keeps.refl (s : State) : Keeps s s where
  organizations := Later.refl .refl _
  outgoing := Later.refl .refl _
  incoming := Later.refl .refl _
  inventory _ a _ h := ⟨a, h, .refl a⟩
  remoteAuthorities := Later.refl .refl _

theorem Keeps.trans {s t u : State} (h : Keeps s t) (h' : Keeps t u) : Keeps s u where
  organizations := h.organizations.trans .trans h'.organizations
  outgoing := h.outgoing.trans .trans h'.outgoing
  incoming := h.incoming.trans .trans h'.incoming
  inventory id a horg ha := by
    obtain ⟨b, hb, hab⟩ := h.inventory id a horg ha
    obtain ⟨o, ho⟩ := Option.isSome_iff_exists.mp horg
    obtain ⟨o', ho', -⟩ := h.organizations id o ho
    obtain ⟨c, hc, hbc⟩ := h'.inventory id b (by simp [ho']) hb
    exact ⟨c, hc, hab.trans hbc⟩
  remoteAuthorities := h.remoteAuthorities.trans .trans h'.remoteAuthorities

section

variable {s : State} {c : Command}

omit [Primitives] in
theorem Later.pushHistory (s : State) (c : Command) :
    Later Organization.Continues s.organizations (pushHistory s c).organizations := by
  unfold DirectTrade.pushHistory
  split
  · intro id o ho
    simp only [Dict.get?_modify]
    split
    · rename_i heq
      subst heq
      refine ⟨_, by rw [ho, Option.map_some], ?_⟩
      exact ⟨rfl, rfl, rfl, fun h => h, List.prefix_append _ _⟩
    · exact ⟨o, ho, .refl o⟩
  · exact Later.refl .refl _

theorem Keeps.pushHistory (s : State) (c : Command) : Keeps s (pushHistory s c) := by
  have horgs := Later.pushHistory s c
  unfold DirectTrade.pushHistory at horgs ⊢
  split
  · rename_i h₁ h₂
    simp only [h₁, h₂] at horgs
    exact { Keeps.refl s with organizations := horgs }
  · exact Keeps.refl s

theorem Keeps.setOrg {k : Call} {o o' : Organization} (horg : k.org = some o)
    (hk : k.org = k.c.organizationId.bind k.s.organizations.get?) (h : o.Continues o') :
    Keeps k.s (k.setOrg o') := by
  unfold Call.setOrg
  split
  · exact Keeps.refl k.s
  · rename_i id hid
    have ho : k.s.organizations.get? id = some o := by
      rw [← horg, hk, hid]
      rfl
    exact { Keeps.refl k.s with organizations := Later.replace .refl ho h }

theorem Call.CompanyChange.continues {k : Call} {o o' : Organization} {m : Mutation}
    {result : Result} (h : k.CompanyChange o m o' result) : o.Continues o' := by
  cases h <;> exact ⟨rfl, rfl, rfl, fun h => h, List.prefix_refl _⟩

/-- A stock entry written for a company extends the one it had. -/
theorem Keeps.setInventory {org : Uuid} {company : Inventory}
    (h : (companyInventory s org).Continues company) : Keeps s (s.setInventory org company) where
  organizations := Later.refl .refl _
  outgoing := Later.refl .refl _
  incoming := Later.refl .refl _
  remoteAuthorities := Later.refl .refl _
  inventory id a _ ha := by
    simp only [State.setInventory, Dict.get?_set]
    split
    · rename_i heq
      subst heq
      refine ⟨company, rfl, ?_⟩
      simpa [companyInventory, ha] using h
    · exact ⟨a, ha, .refl a⟩

end

omit [Primitives] in
/-- An index that keeps the books may be set. -/
theorem Inventory.Continues.setIndex {a b : Inventory} {index : LedgerIndex}
    (h : a.flow.isSome = true → index.flow.isSome = true) : a.Continues (b.setIndex index) :=
  ⟨fun _ => rfl, h⟩

omit [Primitives] in
theorem Inventory.Continues.setFlow (a b : Inventory) (flow : FlowIndex) :
    a.Continues (b.setFlow flow) :=
  ⟨fun _ => rfl, fun _ => rfl⟩

omit [Primitives] in
theorem Inventory.Continues.withLedgers (a : Inventory) : a.Continues a.withLedgers :=
  .setIndex fun h => by simpa using h

omit [Primitives] in
theorem Inventory.Continues.stockBase (s : State) (org : Uuid) (m : Mutation) :
    (companyInventory s org).Continues (Call.stockBase s org m) := by
  unfold Call.stockBase
  split
  · exact .refl _
  · exact .withLedgers _
  · exact .setFlow _ _ _

variable [Reducers]

/-- The entry that an assessment writes. -/
def Assessed.company? : Assessed → Option Inventory
  | .duplicate company _ => some company
  | .validated company _ => company

theorem assessEvent_continues {s : State} {o : Organization} {p : RecordPayload}
    {outcome : Assessed} (h : assessEvent s o p = .ok outcome) :
    ∀ company ∈ outcome.company?, (companyInventory s o.id).Continues company := by
  simp only [assessEvent, Outcome.bind_eq_ok] at h
  obtain ⟨_, -, _, -, pool, -, _, -, h⟩ := h
  split at h <;> simp only [Outcome.bind_eq_ok, Outcome.pure_eq_ok] at h
  · obtain ⟨_, -, rfl⟩ := h
    rintro _ ⟨rfl⟩
    exact .refl _
  · obtain ⟨state, -, rfl⟩ := h
    rintro _ ⟨rfl⟩
    exact ⟨fun h => h, fun h => h⟩

theorem assessFact_continues {s : State} {o : Organization} {p : RecordPayload}
    {outcome : Assessed} (h : assessFact s o p = .ok outcome) :
    ∀ company ∈ outcome.company?, (companyInventory s o.id).Continues company := by
  simp only [assessFact, Outcome.bind_eq_ok] at h
  obtain ⟨_, -, _, -, ledger, -, _, -, _, -, _, -, h⟩ := h
  split at h <;> simp only [Outcome.bind_eq_ok, Outcome.pure_eq_ok] at h
  · obtain ⟨_, -, rfl⟩ := h
    rintro _ ⟨rfl⟩
    exact .withLedgers _
  · obtain ⟨state, -, rfl⟩ := h
    rintro _ ⟨rfl⟩
    exact .setIndex fun hflow => by simpa [inventoryState, Inventory.withLedgers] using hflow

theorem assessFlowFact_continues {s : State} {o : Organization} {c : Command}
    {p : RecordPayload} {outcome : Assessed} (h : assessFlowFact s o c p = .ok outcome) :
    ∀ company ∈ outcome.company?, (companyInventory s o.id).Continues company := by
  simp only [assessFlowFact, Outcome.bind_eq_ok] at h
  obtain ⟨_, -, book, -, _, -, _, -, _, -, _, -, h⟩ := h
  split at h <;> simp only [Outcome.bind_eq_ok, Outcome.pure_eq_ok] at h
  · obtain ⟨_, -, rfl⟩ := h
    rintro _ ⟨rfl⟩
    exact .setFlow _ _ _
  · obtain ⟨_, -, state, -, revisions, -, rfl⟩ := h
    rintro _ ⟨rfl⟩
    exact .setFlow _ _ _

theorem Call.assess_continues {k : Call} {s : State} {o : Organization} {profile : Profile}
    {p : RecordPayload} {before : Option BusinessRecord} {outcome : Assessed}
    (h : k.assess s o profile p before = .ok outcome) :
    ∀ company ∈ outcome.company?, (companyInventory s o.id).Continues company := by
  have hplain : ∀ {v : Validation}, Assessed.validated none v = outcome →
      ∀ company ∈ outcome.company?, (companyInventory s o.id).Continues company := by
    rintro v rfl company ⟨⟩
  unfold assess at h
  split at h
  case h_8 => exact assessFact_continues h
  case h_9 => exact assessFlowFact_continues h
  case h_10 => exact assessEvent_continues h
  all_goals
    simp only [Outcome.bind_eq_ok, Outcome.pure_eq_ok] at h
  · exact hplain h
  · obtain ⟨_, -, _, -, h⟩ := h
    exact hplain h
  · obtain ⟨_, -, _, -, h⟩ := h
    exact hplain h
  · obtain ⟨_, -, _, -, h⟩ := h
    exact hplain h
  · obtain ⟨_, -, _, -, h⟩ := h
    exact hplain h
  · obtain ⟨_, -, _, -, _, -, h⟩ := h
    exact hplain h
  · obtain ⟨_, -, h⟩ := h
    exact hplain h

omit [Reducers] in
theorem Call.StockChange.continues {k : Call} {o : Organization} {m : Mutation}
    {company : Inventory} {result : Result} (h : k.StockChange o m company result) :
    (companyInventory k.s o.id).Continues company := by
  cases h with
  | pool => exact ⟨fun h => h, fun h => h⟩
  | ledger =>
    exact .setIndex fun hflow => by simpa [inventoryState, Inventory.withLedgers] using hflow
  | book => exact .setFlow _ _ _
  | bookLedger => exact .setFlow _ _ _

omit [Reducers] in
theorem Call.Attests.advances {s : State} {token : SignedToken} {ctx : Context}
    {hop : Option Digest} {b : AuthorityBody} (h : Attests s token ctx hop b)
    (old : RemoteAuthority) (hold : s.remoteAuthorities.get? b.organizationId = some old) :
    old.Continues ⟨⟨b, token.keyId, token.signature⟩⟩ := by
  have hcontinues := h.continues old.token (by simp [hold])
  simp only [DirectTrade.continues, Outcome.bind_eq_ok, demand_eq_ok, exists_const] at hcontinues
  obtain ⟨hgeneration, hcontinues⟩ := hcontinues
  rcases Nat.lt_or_eq_of_le hgeneration with hlt | heq
  · exact .generation hlt
  · have hsame : (b.issuer = old.token.body.issuer ∧ token.keyId = old.token.keyId) ∧
        b.issuedAt ≥ old.token.body.issuedAt ∧ (b.issuedAt = old.token.body.issuedAt →
          Primitives.digestBody (.authority b) =
            Primitives.digestBody (.authority old.token.body)) := by
      split at hcontinues <;>
        simp only [heq.symm, if_true, Outcome.bind_eq_ok, demand_eq_ok, exists_const] at hcontinues
      · obtain ⟨-, hkey, hissued, hdigest⟩ := hcontinues
        exact ⟨hkey, hissued, fun h => by simpa [h] using hdigest⟩
      · obtain ⟨hkey, hissued, hdigest⟩ := hcontinues
        exact ⟨hkey, hissued, fun h => by simpa [h] using hdigest⟩
    obtain ⟨⟨hissuer, hkey⟩, hissued, hdigest⟩ := hsame
    rcases hissued.lt_or_eq with hlt | heq'
    · exact .observed heq.symm hissuer hkey hlt
    · exact .same ⟨heq.symm, hissuer, hkey, heq'.symm, hdigest heq'.symm⟩

omit [Reducers] in
theorem Keeps.takeOver {s : State} {snap : Snapshot}
    (habsent : s.organizations.get? snap.organization.id = none) :
    Keeps s (takeOver s snap) where
  organizations := Later.add .refl habsent
  outgoing := Later.refl .refl _
  incoming := Later.refl .refl _
  remoteAuthorities := Later.refl .refl _
  inventory id a horg ha := by
    refine ⟨a, ?_, .refl a⟩
    simp only [DirectTrade.takeOver]
    split
    · exact ha
    · rw [Dict.get?_set_of_ne, ha]
      rintro rfl
      simp [habsent] at horg

theorem Accepted.keeps {s : State} {c : Command} {ctx : Context} {signed : List KeyId}
    {reply : Reply} (keyed : Keyed s) (h : Accepted s c ctx signed reply) :
    Keeps s (reply.next c) := by
  cases h.effect with
  | found orgId name nonce controllers threshold payload founds =>
    refine Keeps.trans ?_ (Keeps.pushHistory _ c)
    unfold Call.setOrg
    split
    · exact Keeps.refl s
    · rename_i id hid
      have habsent : c.organizationId.bind s.organizations.get? = none := founds.absent
      have hc : c.organizationId = some id := hid
      rw [hc] at habsent
      exact { Keeps.refl s with organizations := Later.add .refl habsent }
  | company o o' m result payload fresh inside change =>
    exact (Keeps.setOrg (k := callOf s c ctx signed) inside.org rfl change.continues).trans
      (Keeps.pushHistory _ c)
  | append o p profile before t company validation payload appends assessed =>
    obtain rfl : s = t := (counterparties_eq keyed.remoteAuthorities appends.attested).symm
    have hcontinues := Call.assess_continues assessed
    cases company with
    | none => exact { Keeps.refl s with }
    | some company => exact { Keeps.setInventory (hcontinues company rfl) with }
  | duplicate o p profile before t company recordId recorded payload appends assessed known =>
    obtain rfl : s = t := (counterparties_eq keyed.remoteAuthorities appends.attested).symm
    exact Keeps.setInventory (Call.assess_continues assessed company rfl)
  | replayStock o m receipt payload opens inside previous =>
    exact Keeps.setInventory (.stockBase s o.id m)
  | stock o m company result payload fresh inside change =>
    exact Keeps.setInventory change.continues
  | attest token hop b payload attests =>
    exact { Keeps.refl s with
      remoteAuthorities := Later.set .refl _ fun old hold => attests.advances old hold }
  | prepare o destination snapshot org payload prepares absent =>
    exact { Keeps.refl s with outgoing := Later.add .refl absent }
  | commit o migrationId ready snapshot out org body payload commits =>
    exact { Keeps.refl s with
      organizations := Later.replace .refl commits.company
        ⟨rfl, rfl, rfl, fun _ => rfl, List.prefix_refl _⟩
      outgoing := Later.replace .refl commits.found
        ⟨rfl, rfl, rfl, rfl, fun t ht => by simp [commits.uncommitted] at ht,
          fun _ ht => ht⟩ }
  | cancel migrationId out o payload owns uncommitted uncancelled =>
    exact { Keeps.refl s with
      outgoing := Later.replace .refl owns.found
        ⟨rfl, rfl, rfl, rfl, fun _ ht => ht, fun t ht => by simp [uncancelled] at ht⟩ }
  | stage token body payload manifests absent company unreserved =>
    exact { Keeps.refl s with incoming := Later.add .refl absent }
  | upload migrationId index data stage payload stages pending known =>
    refine { Keeps.refl s with incoming := Later.replace .refl stages.found ?_ }
    simp only [InboundMigration.pending, Bool.and_eq_true, Bool.not_eq_true'] at pending
    refine ⟨rfl, rfl, ?_, ?_, ?_, ?_, fun _ t ht => ⟨ht, rfl⟩⟩
    · simp [pending.1]
    · simp [pending.2]
    · intro hstop
      rw [← hstop] at pending
      simp [InboundMigration.stopped] at pending
    · intro _ i d hd
      simp only [Std.ExtTreeMap.getElem?_insert]
      split
      · rename_i heq
        obtain rfl := Nat.compare_eq_eq.mp heq
        simpa [hd, eq_comm] using known
      · exact hd
  | ready migrationId stage snapshot payload stages pending unready lifetime assembled absent
      valid =>
    refine { Keeps.refl s with incoming := Later.replace .refl stages.found ?_ }
    simp only [InboundMigration.pending, Bool.and_eq_true, Bool.not_eq_true'] at pending
    refine ⟨rfl, rfl, ?_, ?_, ?_, fun _ _ _ hd => hd, fun _ t ht => ?_⟩
    · simp [pending.1]
    · simp [pending.2]
    · intro hstop
      rw [← hstop] at pending
      simp [InboundMigration.stopped] at pending
    · simp [unready] at ht
  | finalize migrationId token stage ready body snapshot payload stages binds inactive held
      absent digest valid activates =>
    obtain ⟨replay, claimed, policyIds, opened, hvalid⟩ :=
      (validateSnapshot_eq_ok s snapshot ()).mp valid
    have hincoming : Later InboundMigration.Continues s.incoming (s.incoming.set migrationId
        { stage with activated := true, snapshot := none, chunks := ∅ }) := by
      refine Later.replace .refl stages.found ⟨rfl, rfl, ?_, ?_, ?_, ?_, ?_⟩
      · simp [inactive]
      · simp [binds.live]
      · intro hstop
        have := binds.live
        rw [← hstop] at this
        simp [InboundMigration.stopped] at this
      · simp [InboundMigration.pending]
      · simp [InboundMigration.pending]
    exact { Keeps.takeOver (organization_absent hvalid.absent) with incoming := hincoming }
  | abort migrationId token stage body payload stages inactive verified source matching =>
    refine { Keeps.refl s with incoming := Later.replace .refl stages.found ?_ }
    refine ⟨rfl, rfl, ?_, fun _ => rfl, fun hstop => hstop, ?_, ?_⟩
    · simp [inactive]
    · simp [InboundMigration.pending]
    · simp [InboundMigration.pending]
  | _ => exact { Keeps.refl s with }

omit [Reducers] in
theorem Keeps.recordReceipt (s : State) (c : Command) (now : Instant)
    (result : Option Result) : Keeps s (recordReceipt s c now result) :=
  { Keeps.refl s with }

theorem Keeps.execute {s s' : State} {c : Command} {ctx : Context} {result : Option Result}
    (keyed : Keyed s) (h : execute s c ctx = .ok (s', result)) : Keeps s s' := by
  obtain ⟨signed, reply, accepted, rfl, -⟩ := execute_eq_ok h
  exact (accepted.keeps keyed).trans (Keeps.recordReceipt _ _ _ _)

end DirectTrade
