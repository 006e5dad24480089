import DirectTrade.Foundation.Identity

/-!
A log as the JSON value that travels, and the limits under which a value is copied:
a number of nodes, a depth, and the bytes of its canonical text.
-/

namespace DirectTrade

namespace Json

variable {α : Type}

mutual

/-- One value for every node, from the values of its parts. -/
def fold (leaf : Json → α) (array : List α → α) (object : List (String × α) → α) : Json → α
  | .arr items => array (foldItems leaf array object items)
  | .obj members => object (foldMembers leaf array object members)
  | other => leaf other

def foldItems (leaf : Json → α) (array : List α → α) (object : List (String × α) → α) :
    List Json → List α
  | [] => []
  | item :: rest => fold leaf array object item :: foldItems leaf array object rest

def foldMembers (leaf : Json → α) (array : List α → α) (object : List (String × α) → α) :
    List (String × Json) → List (String × α)
  | [] => []
  | (name, value) :: rest =>
    (name, fold leaf array object value) :: foldMembers leaf array object rest

end

theorem foldItems_eq_map (leaf : Json → α) (array : List α → α)
    (object : List (String × α) → α) (items : List Json) :
    foldItems leaf array object items = items.map (fold leaf array object) := by
  induction items with
  | nil => rfl
  | cons item rest ih => rw [foldItems, ih, List.map_cons]

def nodes : Json → ℕ :=
  fold (fun _ => 1) (fun items => 1 + items.sum)
    fun members => 1 + (members.map Prod.snd).sum

def depth : Json → ℕ :=
  fold (fun _ => 0) (fun items => (items.map (· + 1)).foldr max 0)
    fun members => (members.map (·.2 + 1)).foldr max 0

/-- The bytes of a character in the canonical text of a string. -/
def charBytes (c : Char) : ℕ :=
  if c.toNat = 34 ∨ c.toNat = 92 then 2
  else if c.toNat ∈ [8, 9, 10, 12, 13] then 2
  else if c.toNat < 32 then 6
  else if c.toNat < 128 then 1
  else if c.toNat < 2048 then 2
  else if c.toNat < 65536 then 3
  else 4

def textBytes (s : String) : ℕ := 2 + (s.toList.map charBytes).sum

def leafBytes : Json → ℕ
  | .bool true => 4
  | .bool false => 5
  | .num n => (if n < 0 then 1 else 0) + (Nat.toDigits 10 n.natAbs).length
  | .str s => textBytes s
  | _ => 4

/-- The length of the canonical text. -/
def bytes : Json → ℕ :=
  fold leafBytes (fun items => 2 + items.sum + (items.length - 1))
    fun members =>
      2 + (members.map fun m => textBytes m.1 + 1 + m.2).sum + (members.length - 1)

def leafPlain : Json → Bool
  | .num n => n.natAbs ≤ 9007199254740991
  | .str s => (s.toList.map fun c => if c.toNat > 65535 then 2 else 1).sum ≤ 4096
  | _ => true

def plain : Json → Bool :=
  fold leafPlain (fun items => items.length ≤ 4096 && items.all id)
    fun members =>
      members.length ≤ 32 &&
        members.all fun m =>
          m.2 && !(["__proto__", "constructor", "prototype"].contains m.1)

@[simp] theorem nodes_arr (items : List Json) :
    (Json.arr items).nodes = 1 + (items.map nodes).sum := by
  rw [nodes, fold, foldItems_eq_map]

end Json

namespace Foundation

open Library Outcome

/-- Detaches a value that arrives from outside, within the limits of a message. -/
def copyIdentityData (value : Json) : Checked Unit := do
  demand "identity data complexity exceeded" (value.nodes ≤ 16384 ∧ value.depth ≤ 16)
  demand "plain identity data required" (value.plain = true)
  demand "identity data too large" (value.bytes ≤ 1024 * 1024)

def digestJson (d : Digest) : Json := .str (String.ofList (hexText 64 d))

def uuidJson (id : Uuid) : Json := .str (uuidText id)

def optionJson {α : Type} (json : α → Json) : Option α → Json
  | none => .null
  | some a => json a

section
variable [Crypto]

def keyJson (k : KeyId) : Json := .str (Crypto.keyText k)

def KeySet.json (v : KeySet) : Json :=
  .obj [("keys", .arr (v.keys.map keyJson)), ("threshold", .num v.threshold)]

def Signature.json (s : Signature) : Json :=
  .obj [("key_id", keyJson s.keyId), ("signature", .str (Crypto.signatureText s.signature))]

def Signed.json {β : Type} (body : β → Json) (signed : Signed β) : Json :=
  .obj [("body", body signed.body), ("signatures", .arr (signed.signatures.map Signature.json))]

def Genesis.json (b : Genesis) : Json :=
  .obj [("nonce", uuidJson b.nonce), ("operational", b.operational.json),
    ("recovery", b.recovery.json)]

def ResolverEnrollment.json (b : ResolverEnrollment) : Json :=
  .obj [("identity_id", uuidJson b.identityId), ("genesis_digest", digestJson b.genesisDigest),
    ("resolver_id", uuidJson b.resolverId), ("resolver_key", keyJson b.resolverKey),
    ("audience", .str b.audience), ("nonce", digestJson b.nonce),
    ("issued_at", .num b.issuedAt), ("expires_at", .num b.expiresAt)]

def TransitionKind.text : TransitionKind → String
  | .rotate => "rotate"
  | .recover => "recover"
  | .recoveryPolicy => "recovery-policy"

def Transition.json (p : Transition) : Json :=
  .obj [("identity_id", uuidJson p.identityId), ("expected_digest", digestJson p.expectedDigest),
    ("sequence", .num p.sequence), ("kind", .str p.kind.text),
    ("operational", p.operational.json), ("recovery", p.recovery.json),
    ("issued_at", .num p.issuedAt), ("expires_at", .num p.expiresAt)]

def RehomeFrom.json (f : RehomeFrom) : Json :=
  .obj [("resolver_id", uuidJson f.resolverId), ("resolver_epoch", .num f.resolverEpoch)]

def RehomeTo.json (t : RehomeTo) : Json :=
  .obj [("resolver_id", uuidJson t.resolverId), ("resolver_key", keyJson t.resolverKey),
    ("audience", .str t.audience), ("resolver_epoch", .num t.resolverEpoch)]

def Rehome.json (p : Rehome) : Json :=
  .obj [("identity_id", uuidJson p.identityId), ("expected_digest", digestJson p.expectedDigest),
    ("sequence", .num p.sequence), ("from", p.source.json), ("to", p.destination.json),
    ("issued_at", .num p.issuedAt), ("expires_at", .num p.expiresAt)]

def HeadAttestation.json (b : HeadAttestation) : Json :=
  .obj [("identity_id", uuidJson b.identityId), ("resolver_id", uuidJson b.resolverId),
    ("resolver_epoch", .num b.resolverEpoch), ("sequence", .num b.sequence),
    ("head_digest", digestJson b.headDigest), ("effective_at", .num b.effectiveAt)]

end
end Foundation
end DirectTrade
